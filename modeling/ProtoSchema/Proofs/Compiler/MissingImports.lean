import ProtoSchema.Proofs.Compiler.Evaluation
import ProtoSchema.Proofs.Compiler.Failure
import ProtoSchema.Proofs.Syntax.Walk
/-! # Missing imports

Imports are loaded depth first, and the first of them that cannot be loaded decides how the
opening of a file ends, however far below the file it is. A file that is not found is blamed on
the file that imports it, and every other error is told as it is.
-/

namespace ProtoSchema

/-! ## Import statements -/

/-- An import statement of a file, and the statements before and after it. -/
structure ImportSite where
  importer : SourceFile
  front : List Syntax.Import
  statement : Syntax.Import
  back : List Syntax.Import
  imports_eq : importer.tree.imports = front ++ statement :: back

namespace ImportSite

/-- The error as the file with the statement reports it. -/
def blame (site : ImportSite) (error : LoadError) : LoadError :=
  error.ofImport site.importer.name site.importer.source site.statement.fileSpan

/-- The name that the statement imports is a string literal of the file, at the place where the
statement has it. -/
def Quoted (site : ImportSite) : Prop :=
  ∃ lexeme ∈ (Syntax.lex site.importer.source).lexemes,
    lexeme.token = .string site.statement.file ∧ lexeme.span = site.statement.fileSpan

end ImportSite

namespace LoadError

variable {error : LoadError} {file source : String} {span : Span}

theorem ofImport_of_ne (other : ∀ name, error ≠ .fileNotFound name) :
    error.ofImport file source span = error := by
  cases error with
  | fileNotFound name => exact absurd rfl (other name)
  | _ => rfl

theorem ofImport_ne (error : LoadError) (name : String) :
    error.ofImport file source span ≠ .fileNotFound name := by
  cases error <;> exact LoadError.noConfusion

end LoadError

/-- A blamed error is not blamed on the files further out. -/
theorem ImportSite.ofImport_blame (site : ImportSite) (error : LoadError) (file source : String)
    (span : Span) : (site.blame error).ofImport file source span = site.blame error :=
  LoadError.ofImport_of_ne error.ofImport_ne

namespace Syntax

/-- In an accepted source the name of every import is a string literal. -/
theorem exists_lexeme_of_mem_imports {name source : String} {tree : File}
    (parsed : parse name source = .ok tree) {statement : Import}
    (member : statement ∈ tree.imports) :
    ∃ lexeme ∈ (lex source).lexemes,
      lexeme.token = .string statement.file ∧ lexeme.span = statement.fileSpan := by
  rcases exists_outline_of_parse parsed with ⟨-, outline, derivation, rfl, -⟩
  rcases List.mem_filterMap.mp member with ⟨written, inOutline, isImport⟩
  rcases derivation.exists_of_mem inOutline with ⟨sentence, inside, stands⟩
  cases stands with
  | import_ inner =>
      cases isImport
      cases inner with
      | @intro keyword close front back modifier file span word how text closes =>
          cases text with
          | @intro lexeme _ token =>
              exact ⟨lexeme, inside.subset (by simp), token, rfl⟩
  | _ => cases isImport

end Syntax

theorem ImportSite.quoted (site : ImportSite) : site.Quoted := by
  refine Syntax.exists_lexeme_of_mem_imports site.importer.parsed ?_
  rw [site.imports_eq]
  exact List.mem_append_right site.front List.mem_cons_self

namespace Rules

/-! ## The first failure -/

/-- A loading fails for a reason of its own: the file is on the way to itself, cannot be opened, or
cannot be added after its imports. -/
inductive Call.FailsItself (rules : Rules) (resolver : Resolver) (call : Call) :
    LoadError → Schema → Prop
  | circle (cyclic : call.name ∈ call.importers) :
      FailsItself rules resolver call
        (.circularImport call.name (call.importers ++ [call.name])) call.schema
  | unreadable {error : LoadError} (noCycle : call.name ∉ call.importers)
      (fresh : call.schema.fileNamed? call.name = none)
      (opened : resolver.openFile call.name = .error error) :
      FailsItself rules resolver call error call.schema
  | rejected {file : SourceFile} {middle after : Schema} {error : LoadError}
      (noCycle : call.name ∉ call.importers)
      (fresh : call.schema.fileNamed? call.name = none)
      (opened : resolver.openFile call.name = .ok file)
      (imported : rules.loadImports resolver (call.importers ++ [call.name]) file
        file.tree.imports call.schema = some (.ok (), middle))
      (failed : rules.commit middle file false = (.error error, after)) :
      FailsItself rules resolver call error after

/-- Loading the imports of a file comes to a statement, of this file or of one that it imports
at some depth, and loads the file that is imported there. All imports before it are loaded
without an error. -/
inductive ComesTo (rules : Rules) (resolver : Resolver) :
    List String → Schema → SourceFile → ImportSite → Call → Prop
  | here {importers : List String} {schema middle : Schema} {site : ImportSite}
      (before : rules.loadImports resolver importers site.importer site.front schema =
        some (.ok (), middle)) :
      ComesTo rules resolver importers schema site.importer site
        ⟨importers, middle, site.statement.file⟩
  | inside {importers : List String} {schema middle : Schema} {outer site : ImportSite}
      {next : SourceFile} {call : Call}
      (before : rules.loadImports resolver importers outer.importer outer.front schema =
        some (.ok (), middle))
      (noCycle : outer.statement.file ∉ importers)
      (fresh : middle.fileNamed? outer.statement.file = none)
      (opened : resolver.openFile outer.statement.file = .ok next)
      (further : ComesTo rules resolver (importers ++ [outer.statement.file]) middle next site
        call) :
      ComesTo rules resolver importers schema outer.importer site call

variable {rules : Rules} {resolver : Resolver}

theorem ComesTo.name_eq {importers : List String} {schema : Schema} {file : SourceFile}
    {site : ImportSite} {call : Call}
    (comes : ComesTo rules resolver importers schema file site call) :
    call.name = site.statement.file := by
  induction comes with
  | here => rfl
  | inside _ _ _ _ _ induction => exact induction

/-! ## The way up -/

theorem Call.FailsItself.failsWith {call : Call} {error : LoadError} {after : Schema}
    (fails : call.FailsItself rules resolver error after) :
    call.FailsWith rules resolver error after := by
  rw [Call.FailsWith]
  cases fails with
  | circle cyclic => exact load_of_cyclic cyclic
  | unreadable noCycle fresh opened => exact load_of_unreadable noCycle fresh opened
  | rejected noCycle fresh opened imported failed =>
      rw [load_of_fresh noCycle fresh opened, imported, Option.map_some, afterImports, failed]

theorem loadImports_append {importers : List String} {file : SourceFile}
    {front : List Syntax.Import} {schema middle : Schema} (back : List Syntax.Import)
    (before : rules.loadImports resolver importers file front schema = some (.ok (), middle)) :
    rules.loadImports resolver importers file (front ++ back) schema =
      rules.loadImports resolver importers file back middle := by
  induction front generalizing schema with
  | nil =>
      rw [loadImports_nil] at before
      cases before
      rfl
  | cons first front induction =>
      rw [loadImports] at before
      simp only [Option.bind_eq_bind, Option.bind_eq_some_iff] at before
      rcases before with ⟨⟨outcome, between⟩, run, rest⟩
      cases outcome with
      | error error => cases rest
      | ok _ => rw [List.cons_append, loadImports_of_ok run, induction rest]

/-- The file with a statement blames itself for the error of the statement. -/
theorem loadImports_of_site {importers : List String} {site : ImportSite}
    {schema middle after : Schema} {error : LoadError}
    (before : rules.loadImports resolver importers site.importer site.front schema =
      some (.ok (), middle))
    (fails : rules.load resolver importers middle site.statement.file =
      some (.error error, after)) :
    rules.loadImports resolver importers site.importer site.importer.tree.imports schema =
      some (.error (site.blame error), after) := by
  rw [site.imports_eq, loadImports_append _ before, loadImports_of_error _ fails]
  rfl

/-- The first failure reaches the file that was opened, as the importing file reports it. -/
theorem ComesTo.loadImports_eq {importers : List String} {schema : Schema} {file : SourceFile}
    {site : ImportSite} {call : Call}
    (comes : ComesTo rules resolver importers schema file site call) {error : LoadError}
    {after : Schema} (fails : call.FailsItself rules resolver error after) :
    rules.loadImports resolver importers file file.tree.imports schema =
      some (.error (site.blame error), after) := by
  induction comes with
  | here before => exact loadImports_of_site before fails.failsWith
  | @inside importers schema middle outer site next call before noCycle fresh opened further
      induction =>
      have inner : rules.load resolver importers middle outer.statement.file =
          some (.error (site.blame error), after) := by
        rw [load_of_fresh noCycle fresh opened, induction fails]
        rfl
      rw [loadImports_of_site before inner, ImportSite.blame, site.ofImport_blame]

/-! ## The way down -/

/-- The first failure behind the error of a file that was to be imported. -/
inductive FailsBelow (rules : Rules) (resolver : Resolver) (call : Call) :
    LoadError → Schema → Prop
  | itself {error : LoadError} {after : Schema}
      (fails : call.FailsItself rules resolver error after) :
      FailsBelow rules resolver call error after
  | inside {file : SourceFile} {site : ImportSite} {inner : Call} {error : LoadError}
      {after : Schema} (noCycle : call.name ∉ call.importers)
      (fresh : call.schema.fileNamed? call.name = none)
      (opened : resolver.openFile call.name = .ok file)
      (comes : ComesTo rules resolver (call.importers ++ [call.name]) call.schema file site inner)
      (fails : inner.FailsItself rules resolver error after) :
      FailsBelow rules resolver call (site.blame error) after

/-- The first failure behind the error of some imports of a file, all before them being
loaded. -/
def ImportsFail (rules : Rules) (resolver : Resolver) (importers : List String)
    (file : SourceFile) (statements : List Syntax.Import) (schema : Schema)
    (result : Except LoadError Unit × Schema) : Prop :=
  ∀ start front error after, file.tree.imports = front ++ statements →
    rules.loadImports resolver importers file front start = some (.ok (), schema) →
    result = (.error error, after) →
    ∃ site call own, ComesTo rules resolver importers start file site call ∧
      call.FailsItself rules resolver own after ∧ error = site.blame own

theorem ImportsFail.of_below {importers : List String} {file : SourceFile}
    {statement : Syntax.Import} {statements : List Syntax.Import} {schema after : Schema}
    {error : LoadError}
    (below : FailsBelow rules resolver ⟨importers, schema, statement.file⟩ error after) :
    ImportsFail rules resolver importers file (statement :: statements) schema
      (.error (error.ofImport file.name file.source statement.fileSpan), after) := by
  intro start front blamed final imports before same
  cases same
  let site : ImportSite := ⟨file, front, statement, statements, imports⟩
  cases below with
  | itself fails =>
      exact ⟨site, _, error, @ComesTo.here rules resolver _ _ _ site before, fails, rfl⟩
  | @inside next inner call own _ noCycle fresh opened comes fails =>
      refine ⟨inner, call, own, ?_, fails, inner.ofImport_blame ..⟩
      exact @ComesTo.inside rules resolver _ _ _ site _ _ _ before noCycle fresh opened comes

theorem load_fails :
    (∀ importers schema name result, rules.load resolver importers schema name = some result →
      ∀ error after, result = (.error error, after) →
        FailsBelow rules resolver ⟨importers, schema, name⟩ error after) ∧
    ∀ importers file statements schema result,
      rules.loadImports resolver importers file statements schema = some result →
      ImportsFail rules resolver importers file statements schema result := by
  apply load_induction rules resolver
  case circular =>
    rintro importers schema name cyclic error after same
    cases same
    exact .itself (.circle cyclic)
  case present =>
    rintro importers schema name noCycle known error after same
    cases same
  case unreadable =>
    rintro importers schema name error noCycle fresh opened _ _ same
    cases same
    exact .itself (.unreadable noCycle fresh opened)
  case importFailed =>
    rintro importers schema name file error after noCycle fresh opened run induction _ _ same
    cases same
    rcases induction schema [] error after rfl (loadImports_nil file) rfl with
      ⟨site, call, own, comes, fails, rfl⟩
    exact .inside noCycle fresh opened comes fails
  case committed =>
    rintro importers schema name file middle noCycle fresh opened run - error after failed
    exact .itself (.rejected noCycle fresh opened run failed)
  case finished =>
    rintro importers file schema start front error after - - same
    cases same
  case failed =>
    rintro importers file statement statements schema error after run induction
    exact .of_below (induction error after rfl)
  case loaded =>
    rintro importers file statement statements schema middle result firstRun restRun - rest
      start front error after imports before same
    refine rest start (front ++ [statement]) error after ?_ ?_ same
    · rw [imports, List.append_assoc, List.singleton_append]
    · rw [loadImports_append _ before, loadImports_of_ok firstRun, loadImports_nil]

/-! ## What is missing -/

/-- Loading without an error keeps the names of all files. -/
theorem load_keeps_names (name : String) :
    (∀ importers schema wanted result,
      rules.load resolver importers schema wanted = some result → result.1 = .ok () →
      (schema.fileNamed? name).isSome → (result.2.fileNamed? name).isSome) ∧
    ∀ importers file statements schema result,
      rules.loadImports resolver importers file statements schema = some result →
      result.1 = .ok () → (schema.fileNamed? name).isSome →
      (result.2.fileNamed? name).isSome := by
  apply load_induction rules resolver
  case circular => intro _ _ _ _ impossible; cases impossible
  case present => exact fun _ _ _ _ _ _ found => found
  case unreadable => intro _ _ _ _ _ _ _ impossible; cases impossible
  case importFailed => intro _ _ _ _ _ _ _ _ _ _ _ impossible; cases impossible
  case committed =>
    intro importers schema wanted file after _ _ _ _ induction succeeded found
    rcases commit_cases rules after file false with ⟨next, added, result⟩ | ⟨error, -, result⟩
    · rcases exists_of_add_eq_ok added with ⟨loaded, -, -, rfl⟩
      rw [result, Schema.fileNamed?_push]
      split
      · rfl
      · exact induction rfl found
    · rw [result] at succeeded
      cases succeeded
  case finished => exact fun _ _ _ _ found => found
  case failed => intro _ _ _ _ _ _ _ _ _ impossible; cases impossible
  case loaded =>
    intro importers file statement statements schema middle result _ _ first rest succeeded found
    exact rest succeeded (first rfl found)

/-- A file that cannot be opened is loaded without an error only if it is there already. -/
theorem isSome_of_load_eq_ok {importers : List String} {schema after : Schema} {name : String}
    {error : LoadError} (opened : resolver.openFile name = .error error)
    (run : rules.load resolver importers schema name = some (.ok (), after)) :
    (schema.fileNamed? name).isSome := by
  by_contra unknown
  have fresh : schema.fileNamed? name = none := by simpa using unknown
  by_cases cyclic : name ∈ importers
  · rw [load_of_cyclic cyclic] at run
    cases run
  · rw [load_of_unreadable cyclic fresh opened] at run
    cases run

theorem isSome_of_loadImports_eq_ok {importers : List String} {file : SourceFile}
    {statements : List Syntax.Import} {schema after : Schema} {error : LoadError}
    (run : rules.loadImports resolver importers file statements schema = some (.ok (), after))
    {statement : Syntax.Import} (member : statement ∈ statements)
    (opened : resolver.openFile statement.file = .error error) :
    (after.fileNamed? statement.file).isSome := by
  induction statements generalizing schema with
  | nil => cases member
  | cons first rest induction =>
      rw [loadImports] at run
      simp only [Option.bind_eq_bind, Option.bind_eq_some_iff] at run
      rcases run with ⟨⟨outcome, middle⟩, firstRun, restRun⟩
      cases outcome with
      | error error => cases restRun
      | ok _ =>
          rcases List.mem_cons.mp member with rfl | member
          · have kept := @load_keeps_names rules resolver statement.file
            exact kept.2 _ _ _ _ _ restRun rfl
              (kept.1 _ _ _ _ firstRun rfl (isSome_of_load_eq_ok opened firstRun))
          · exact induction restRun member

/-- The resolver has no file that is to be loaded. -/
structure Call.Misses (resolver : Resolver) (call : Call) : Prop where
  noCycle : call.name ∉ call.importers
  fresh : call.schema.fileNamed? call.name = none
  missing : resolver.openFile call.name = .error (.fileNotFound call.name)

theorem Call.Misses.failsItself {call : Call} (misses : call.Misses resolver) :
    call.FailsItself rules resolver (.fileNotFound call.name) call.schema :=
  .unreadable misses.noCycle misses.fresh misses.missing

/-- The statement at which a file is missing is the first one of its file that names it. -/
theorem ComesTo.ne_of_misses {importers : List String} {schema : Schema} {file : SourceFile}
    {site : ImportSite} {call : Call}
    (comes : ComesTo rules resolver importers schema file site call)
    (misses : call.Misses resolver) :
    ∀ earlier ∈ site.front, earlier.file ≠ site.statement.file := by
  induction comes with
  | here before =>
      intro earlier member same
      have fresh := misses.fresh
      have loaded := isSome_of_loadImports_eq_ok before member (by rw [same]; exact misses.missing)
      rw [same, fresh] at loaded
      cases loaded
  | inside _ _ _ _ _ induction => exact induction misses

/-! ## The standard validators -/

/-- What a standard validator finds wrong with a file is an error in the source of the file. -/
theorem exists_check_of_standard {validator : Validator}
    (standard : validator ∈ ({} : Rules).validators) {schema : Schema} {id : FileId}
    {loaded : LoadedFile} (present : schema.files[id]? = some loaded) {error : LoadError}
    (rejects : validator schema id = .error error) :
    ∃ fault, error = .check fault loaded.file.name loaded.source := by
  have search {search : Schema → LoadedFile → Option CheckError}
      (rejects : Validator.ofSearch search schema id = .error error) :
      ∃ fault, error = .check fault loaded.file.name loaded.source := by
    rcases (Validator.ofSearch_eq_error_iff present).mp rejects with ⟨fault, -, same⟩
    exact ⟨fault, same⟩
  simp only [List.mem_cons, List.not_mem_nil, or_false] at standard
  rcases standard with rfl | rfl | rfl <;> exact search rejects

/-- With the standard validators, a file that cannot be added has an error in its source. -/
theorem exists_check_of_commit (standard : rules.validators ⊆ ({} : Rules).validators)
    {schema after : Schema} {file : SourceFile} {isRoot : Bool} {error : LoadError}
    (failed : rules.commit schema file isRoot = (.error error, after)) :
    ∃ fault, error = .check fault file.name file.source := by
  rcases commit_cases rules schema file isRoot with ⟨next, -, result⟩ | ⟨other, added, result⟩
  · rw [result] at failed
    cases failed
  rw [result] at failed
  cases failed
  rcases add_eq_error added with ⟨fault, -, rfl⟩ | ⟨loaded, link, validator, member, rejects⟩
  · exact ⟨fault, rfl⟩
  · have linked := link_eq_ok link
    rw [← linked.name_eq, ← linked.source_eq]
    exact exists_check_of_standard (standard member) (Schema.getElem?_push_size schema loaded)
      rejects

end Rules

/-- The resolver tells of every file that it does not find under the name that it was asked
for. -/
def Resolver.ReportsMissing (resolver : Resolver) : Prop :=
  ∀ name error, resolver.openFile name = .error error → error.isFileNotFound = true →
    error = .fileNotFound name

namespace Resolver

/-- In a chain a file is missing if no resolver finds it. -/
theorem reportsMissing_chain {resolvers : List Resolver} : (chain resolvers).ReportsMissing := by
  intro name error failed missing
  change openFirst name resolvers = .error error at failed
  induction resolvers with
  | nil =>
      cases failed
      rfl
  | cons resolver resolvers induction =>
      rw [openFirst] at failed
      split at failed
      · cases failed
      · split at failed
        · exact induction failed
        · next other =>
            cases failed
            exact absurd missing other

theorem reportsMissing_ofDirectories (disk : Disk) (directories : List Path) :
    (ofDirectories disk directories).ReportsMissing :=
  reportsMissing_chain

theorem reportsMissing_ofMemory (sources : List (String × String)) :
    (ofMemory { sources }).ReportsMissing := by
  intro name error failed missing
  simp only [ofMemory, List.lookup_nil] at failed
  cases found : sources.lookup name with
  | none =>
      rw [found] at failed
      cases failed
      rfl
  | some source =>
      rw [found] at failed
      rcases SourceFile.exists_of_ofSource_eq_error failed with ⟨_, rfl⟩
      cases missing

end Resolver

theorem Rules.Call.FailsItself.misses {rules : Rules} {resolver : Resolver} {call : Rules.Call}
    (standard : rules.validators ⊆ ({} : Rules).validators) (reports : resolver.ReportsMissing)
    {name : String} {after : Schema}
    (fails : call.FailsItself rules resolver (.fileNotFound name) after) :
    call.Misses resolver := by
  cases fails with
  | unreadable noCycle fresh opened =>
      have same := reports _ _ opened rfl
      rw [same] at opened
      exact ⟨noCycle, fresh, opened⟩
  | rejected _ _ _ _ failed =>
      rcases Rules.exists_check_of_commit standard failed with ⟨fault, impossible⟩
      cases impossible

namespace Compiler

/-! ## Opening a file -/

/-- A path leads to a file that is loaded with its imports. -/
inductive Begins (compiler : Compiler) (path : Path) (root : String) (file : SourceFile) : Prop
  | intro (included : Bool) (target : compiler.target? path = some (root, included))
      (fresh : compiler.schema.fileNamed? root = none)
      (opened : compiler.resolver.openFile root = .ok file)
      (unshadowed : checkShadow root (if included then file.path else none) path = .ok ())

/-- Loading the imports of the file at a path comes to a statement, and loads the file that is
imported there. -/
inductive Reaches (compiler : Compiler) (path : Path) (site : ImportSite) (call : Rules.Call) :
    Prop
  | intro {root : String} {file : SourceFile} (begins : compiler.Begins path root file)
      (comes : Rules.ComesTo compiler.rules compiler.resolver [root] compiler.schema file site
        call)

variable {compiler : Compiler} {path : Path} {root : String} {file : SourceFile}

theorem Begins.openFile_eq (begins : compiler.Begins path root file) :
    compiler.openFile path =
      match compiler.rules.loadRoot compiler.resolver compiler.schema root file with
      | some (result, schema) => (result, { compiler with schema })
      | none => (.error (.importsTooDeep root), compiler) := by
  rcases begins with ⟨included, target, fresh, opened, unshadowed⟩
  cases run : compiler.rules.loadRoot compiler.resolver compiler.schema root file <;>
    simp only [openFile, target, fresh, openNew, opened, unshadowed, run]

/-- The first failure decides how the opening of a file ends. -/
theorem Reaches.openFile_eq {site : ImportSite} {call : Rules.Call}
    (reaches : compiler.Reaches path site call) {error : LoadError} {after : Schema}
    (fails : call.FailsItself compiler.rules compiler.resolver error after) :
    (compiler.openFile path).1 = .error (site.blame error) := by
  rcases reaches with ⟨begins, comes⟩
  rw [begins.openFile_eq, Rules.loadRoot_eq, comes.loadImports_eq fails]
  rfl

/-- Why a path cannot be opened: for a reason of its own, or because of the first failure among
the imports. -/
inductive Refuses (compiler : Compiler) (path : Path) : LoadError → Prop
  | unnamed (target : compiler.target? path = none) : Refuses compiler path (.notIncluded path)
  | missing {root : String} {included : Bool}
      (target : compiler.target? path = some (root, included))
      (opened : compiler.resolver.openFile root = .error (.fileNotFound root)) :
      Refuses compiler path (.notIncluded path)
  | unreadable {root : String} {included : Bool} {error : LoadError}
      (target : compiler.target? path = some (root, included))
      (opened : compiler.resolver.openFile root = .error error)
      (other : error.isFileNotFound = false) : Refuses compiler path error
  | shadowed {root : String} {included : Bool} {opened : Option Path} {error : LoadError}
      (target : compiler.target? path = some (root, included))
      (shadow : checkShadow root opened path = .error error) : Refuses compiler path error
  | endless {root : String} {file : SourceFile} (begins : compiler.Begins path root file)
      (run : compiler.rules.loadRoot compiler.resolver compiler.schema root file = none) :
      Refuses compiler path (.importsTooDeep root)
  | rejected {root : String} {file : SourceFile} {middle after : Schema} {error : LoadError}
      (begins : compiler.Begins path root file)
      (imported : compiler.rules.loadImports compiler.resolver [root] file file.tree.imports
        compiler.schema = some (.ok (), middle))
      (failed : compiler.rules.commit middle file true = (.error error, after)) :
      Refuses compiler path error
  | imported {site : ImportSite} {call : Rules.Call} {error : LoadError} {after : Schema}
      (reaches : compiler.Reaches path site call)
      (fails : call.FailsItself compiler.rules compiler.resolver error after) :
      Refuses compiler path (site.blame error)

theorem Begins.refuses (begins : compiler.Begins path root file) {error : LoadError}
    (failed : (compiler.openFile path).1 = .error error) : compiler.Refuses path error := by
  rw [begins.openFile_eq] at failed
  cases run : compiler.rules.loadRoot compiler.resolver compiler.schema root file with
  | none =>
      rw [run] at failed
      cases failed
      exact .endless begins run
  | some result =>
      rcases result with ⟨outcome, after⟩
      rw [run] at failed
      cases failed
      rw [Rules.loadRoot_eq, Option.map_eq_some_iff] at run
      rcases run with ⟨⟨outcome, middle⟩, imports, same⟩
      cases outcome with
      | ok _ => exact .rejected begins imports same
      | error fault =>
          cases same
          rcases Rules.load_fails.2 _ _ _ _ _ imports compiler.schema [] error after rfl
            (Rules.loadImports_nil file) rfl with ⟨site, call, own, comes, fails, rfl⟩
          exact .imported ⟨begins, comes⟩ fails

/-- A path that cannot be opened has one of these reasons. -/
theorem refuses_of_openFile (reports : compiler.resolver.ReportsMissing) {error : LoadError}
    (failed : (compiler.openFile path).1 = .error error) : compiler.Refuses path error := by
  have whole := failed
  rw [openFile] at failed
  cases target : compiler.target? path with
  | none =>
      simp only [target] at failed
      cases failed
      exact .unnamed target
  | some found =>
      rcases found with ⟨root, included⟩
      simp only [target] at failed
      cases known : compiler.schema.fileNamed? root with
      | some id =>
          simp only [known, reopen] at failed
          split at failed
          · next fault shadow =>
              cases failed
              exact .shadowed target shadow
          · cases failed
      | none =>
          simp only [known, openNew] at failed
          cases opened : compiler.resolver.openFile root with
          | error fault =>
              simp only [opened] at failed
              cases failed
              split
              · next missing =>
                  rw [reports _ _ opened missing] at opened
                  exact .missing target opened
              · next other => exact .unreadable target opened (Bool.not_eq_true _ ▸ other)
          | ok file =>
              simp only [opened] at failed
              cases shadow : checkShadow root (if included then file.path else none) path with
              | error fault =>
                  simp only [shadow] at failed
                  cases failed
                  exact .shadowed target shadow
              | ok _ => exact Begins.refuses ⟨included, target, known, opened, shadow⟩ whole

/-- Opening a path blames a missing import on the file that imports it, and tells the other
errors of imported files as they are. -/
structure BlamesImporter (compiler : Compiler) (path : Path) : Prop where
  /-- A missing import is an error of the file that contains the import statement, at the string
  literal of the first statement there that names it. -/
  missing : ∀ {site call}, compiler.Reaches path site call → call.Misses compiler.resolver →
    (compiler.openFile path).1 =
        .error (.importNotFound call.name site.importer.name site.importer.source
          site.statement.fileSpan) ∧
      call.name = site.statement.file ∧ site.Quoted ∧
      ∀ earlier ∈ site.front, earlier.file ≠ site.statement.file
  /-- An import that fails for another reason keeps its error. -/
  passed : ∀ {site call error after}, compiler.Reaches path site call →
    call.FailsItself compiler.rules compiler.resolver error after →
    ¬call.Misses compiler.resolver → (compiler.openFile path).1 = .error error
  /-- If the file itself is missing, the path is named. -/
  root : ∀ {root included}, compiler.target? path = some (root, included) →
    compiler.schema.fileNamed? root = none →
    compiler.resolver.openFile root = .error (.fileNotFound root) →
    (compiler.openFile path).1 = .error (.notIncluded path)
  /-- There are no other errors. -/
  complete : ∀ error, (compiler.openFile path).1 = .error error → compiler.Refuses path error

/-- With the standard validators and a resolver that reports missing files, whatever has been
loaded before. -/
theorem blamesImporter_openFile
    (standard : compiler.rules.validators ⊆ ({} : Rules).validators)
    (reports : compiler.resolver.ReportsMissing) (path : Path) :
    compiler.BlamesImporter path where
  missing reaches misses := by
    rw [reaches.openFile_eq misses.failsItself]
    rcases reaches with ⟨-, comes⟩
    exact ⟨rfl, comes.name_eq, ImportSite.quoted _, comes.ne_of_misses misses⟩
  passed reaches fails found := by
    rw [reaches.openFile_eq fails, ImportSite.blame, LoadError.ofImport_of_ne]
    rintro name rfl
    exact found (fails.misses standard reports)
  root target fresh opened := by
    simp only [openFile, target, fresh, openNew, opened, LoadError.isFileNotFound, if_true]
  complete error failed := refuses_of_openFile reports failed

/-- The file that is missing is two imports away from the one that is opened. -/
theorem blamesImporter_openFile_chain :
    let chain := Resolver.ofMemory
      { sources := [("root.proto", "import \"next.proto\";"),
        ("next.proto", "import \"dep.proto\";"), ("dep.proto", "import \"missing.proto\";")] }
    (({} : Rules).validators ⊆ ({} : Rules).validators ∧ chain.ReportsMissing) ∧
      BlamesImporter { resolver := chain } ⟨"root.proto"⟩ ∧
      (openFile { resolver := chain } ⟨"root.proto"⟩).1 =
        .error (.importNotFound "missing.proto" "dep.proto" "import \"missing.proto\";"
          ⟨7, 22⟩) := by
  intro chain
  have standard : ({} : Rules).validators ⊆ ({} : Rules).validators := List.Subset.refl _
  have reports : chain.ReportsMissing := Resolver.reportsMissing_ofMemory _
  refine ⟨⟨standard, reports⟩, ?_, ?_⟩
  · exact @blamesImporter_openFile { resolver := chain } standard reports ⟨"root.proto"⟩
  · exact @openFile_of_computed
      (fun result => result.1 = .error (.importNotFound "missing.proto" "dep.proto"
        "import \"missing.proto\";" ⟨7, 22⟩))
      _ 4 { resolver := chain } ⟨"root.proto"⟩ (by decide +kernel)

end Compiler

end ProtoSchema
