import ProtoSchema.Proofs.Compiler.WellFormed
/-! # The order of loading

Files are loaded in the depth-first post-order of their import statements: every file
comes after the files that it imports, and what is there already is passed over. A
loading that fails has loaded the beginning of this order only.
-/

namespace ProtoSchema

/-- A name leads to another one in any number of steps. -/
abbrev LeadsTo (next : String → List String) : String → String → Prop :=
  Relation.ReflTransGen fun source target => target ∈ next source

/-! ## Depth-first post-order -/

/-- What some names lead to, without what was seen before: for each name in turn what it
leads to, and then the name itself. -/
inductive PostOrder (next : String → List String) :
    List String → List String → List String → Prop
  | done (seen : List String) : PostOrder next seen [] []
  | known {seen names order : List String} {name : String} (member : name ∈ seen)
      (rest : PostOrder next seen names order) : PostOrder next seen (name :: names) order
  | visited {seen names inner order : List String} {name : String} (fresh : name ∉ seen)
      (inside : PostOrder next seen (next name) inner)
      (rest : PostOrder next (seen ++ inner ++ [name]) names order) :
      PostOrder next seen (name :: names) (inner ++ name :: order)

namespace PostOrder

variable {next : String → List String} {seen names order : List String} {name : String}

theorem cons {front back : List String} (first : PostOrder next seen [name] front)
    (rest : PostOrder next (seen ++ front) names back) :
    PostOrder next seen (name :: names) (front ++ back) := by
  cases first with
  | known member nothing =>
      cases nothing
      rw [List.append_nil] at rest
      exact .known member rest
  | @visited _ _ inner _ _ fresh inside nothing =>
      cases nothing
      rw [← List.append_assoc] at rest
      rw [List.append_assoc, List.singleton_append]
      exact .visited fresh inside rest

theorem eq_nil_of_mem (visits : PostOrder next seen [name] order) (known : name ∈ seen) :
    order = [] := by
  cases visits with
  | known _ rest =>
      cases rest
      rfl
  | visited fresh _ _ => exact absurd known fresh

theorem getLast?_of_not_mem (visits : PostOrder next seen [name] order) (fresh : name ∉ seen) :
    order.getLast? = some name := by
  cases visits with
  | known member _ => exact absurd member fresh
  | visited _ _ rest =>
      cases rest
      exact List.getLast?_concat

theorem fresh_of_mem (visits : PostOrder next seen names order) :
    ∀ other ∈ order, other ∉ seen := by
  induction visits with
  | done seen => exact fun _ member => absurd member List.not_mem_nil
  | known _ _ induction => exact induction
  | visited fresh _ _ inside rest =>
      intro other member
      rcases List.mem_append.mp member with member | member
      · exact inside other member
      rcases List.mem_cons.mp member with rfl | member
      · exact fresh
      · intro known
        exact rest other member (by simp [known])

theorem exists_leadsTo (visits : PostOrder next seen names order) :
    ∀ other ∈ order, ∃ start ∈ names, LeadsTo next start other := by
  induction visits with
  | done seen => exact fun _ member => absurd member List.not_mem_nil
  | known _ _ induction =>
      intro other member
      rcases induction other member with ⟨start, listed, leads⟩
      exact ⟨start, List.mem_cons_of_mem _ listed, leads⟩
  | @visited seen names inner order name _ _ _ inside rest =>
      intro other member
      rcases List.mem_append.mp member with member | member
      · rcases inside other member with ⟨start, edge, leads⟩
        exact ⟨name, List.mem_cons_self, .head edge leads⟩
      rcases List.mem_cons.mp member with rfl | member
      · exact ⟨other, List.mem_cons_self, .refl⟩
      · rcases rest other member with ⟨start, listed, leads⟩
        exact ⟨start, List.mem_cons_of_mem _ listed, leads⟩

/-- In the end everything has been seen, and so has whatever a visited name leads to. -/
theorem closed (visits : PostOrder next seen names order) :
    (∀ other ∈ names, other ∈ seen ++ order) ∧
      ∀ other ∈ order, ∀ target ∈ next other, target ∈ seen ++ order := by
  induction visits with
  | done seen => simp
  | known member _ induction =>
      exact ⟨List.forall_mem_cons.mpr ⟨List.mem_append_left _ member, induction.1⟩, induction.2⟩
  | @visited seen names inner order name _ _ _ inside rest =>
      have same : seen ++ inner ++ [name] ++ order = seen ++ (inner ++ name :: order) := by simp
      rw [same] at rest
      have early : ∀ other ∈ seen ++ inner, other ∈ seen ++ (inner ++ name :: order) := by
        intro other member
        rw [← List.append_assoc]
        exact List.mem_append_left _ member
      refine ⟨List.forall_mem_cons.mpr ⟨by simp, rest.1⟩, fun other member target edge => ?_⟩
      rcases List.mem_append.mp member with member | member
      · exact early target (inside.2 other member target edge)
      rcases List.mem_cons.mp member with rfl | member
      · exact early target (inside.1 target edge)
      · exact rest.2 other member target edge

/-- If what was seen before leads to nothing new, the order has everything that the names
lead to and that was not seen before. -/
theorem mem_iff (visits : PostOrder next seen names order)
    (seenClosed : ∀ other ∈ seen, ∀ target ∈ next other, target ∈ seen) {other : String} :
    other ∈ order ↔ (∃ start ∈ names, LeadsTo next start other) ∧ other ∉ seen := by
  constructor
  · intro member
    exact ⟨visits.exists_leadsTo other member, visits.fresh_of_mem other member⟩
  · rintro ⟨⟨start, listed, leads⟩, fresh⟩
    have inside : other ∈ seen ++ order := by
      induction leads with
      | refl => exact visits.closed.1 start listed
      | @tail source target _ edge induction =>
          by_cases known : source ∈ seen
          · exact List.mem_append_left _ (seenClosed source known target edge)
          · have visited := (List.mem_append.mp (induction known)).resolve_left known
            exact visits.closed.2 source visited target edge
    exact (List.mem_append.mp inside).resolve_left fresh

end PostOrder

/-! ## Names of loaded files -/

namespace Schema

theorem fileNames_push (schema : Schema) (loaded : LoadedFile) :
    (schema.push loaded).fileNames = schema.fileNames ++ [loaded.file.name] := by
  simp [fileNames, push]

theorem mem_fileNames {schema : Schema} {name : String} :
    name ∈ schema.fileNames ↔
      ∃ (id : FileId) (loaded : LoadedFile), schema.files[id]? = some loaded ∧
        loaded.file.name = name := by
  rw [fileNames, List.mem_map]
  constructor
  · rintro ⟨loaded, member, rfl⟩
    rcases List.getElem?_of_mem member with ⟨id, present⟩
    exact ⟨id, loaded, by simpa using present, rfl⟩
  · rintro ⟨id, loaded, present, rfl⟩
    exact ⟨loaded, List.mem_of_getElem? (by simpa using present), rfl⟩

theorem WellFormed.mem_fileNames_iff {schema : Schema} {opened : List String}
    (wellFormed : schema.WellFormed opened) {name : String} :
    name ∈ schema.fileNames ↔ (schema.fileNamed? name).isSome := by
  rw [mem_fileNames, Option.isSome_iff_exists]
  exact exists_congr fun id => wellFormed.fileNamed?_eq_some_iff.symm

theorem WellFormed.not_mem_fileNames_iff {schema : Schema} {opened : List String}
    (wellFormed : schema.WellFormed opened) {name : String} :
    name ∉ schema.fileNames ↔ schema.fileNamed? name = none := by
  rw [wellFormed.mem_fileNames_iff, Option.not_isSome_iff_eq_none]

end Schema

namespace Rules

/-! ## What loading appends -/

/-- A schema in the course of a loading: no file on the way is in it, and a file that is
not in it leads to the imports of its source. -/
structure Underway (resolver : Resolver) (next : String → List String)
    (importers : List String) (schema : Schema) : Prop where
  wellFormed : ∃ opened, schema.WellFormed opened
  lacks : schema.Lacks importers
  next_eq : ∀ name file, schema.fileNamed? name = none → resolver.openFile name = .ok file →
    next name = file.tree.imports.map Syntax.Import.file

/-- Loading has appended some files to a schema, each of which the wanted names lead to.
If it succeeds, these are all that were missing, in post-order. -/
structure Appends (next : String → List String) (schema : Schema) (wanted : List String)
    (result : Except LoadError Unit × Schema) (order : List String) : Prop where
  fileNames_eq : result.2.fileNames = schema.fileNames ++ order
  postOrder : result.1 = .ok () → PostOrder next schema.fileNames wanted order
  leadsTo : ∀ name ∈ order, ∃ start ∈ wanted, LeadsTo next start name

variable {rules : Rules} {resolver : Resolver} {next : String → List String}

theorem Underway.steps {importers : List String} {schema after : Schema}
    (underway : Underway resolver next importers schema) (names : resolver.NamesFiles)
    (steps : Steps rules resolver schema after) (lacks : after.Lacks importers) :
    Underway resolver next importers after where
  wellFormed := by
    rcases underway.wellFormed with ⟨opened, wellFormed⟩
    exact ⟨opened, wellFormed.steps names steps⟩
  lacks := lacks
  next_eq name file fresh opened := by
    apply underway.next_eq name file _ opened
    cases named : schema.fileNamed? name with
    | none => rfl
    | some id =>
        rw [steps.fileNamed?_of_some names named] at fresh
        cases fresh

theorem Underway.append_singleton {importers : List String} {schema : Schema} {name : String}
    (underway : Underway resolver next importers schema)
    (fresh : schema.fileNamed? name = none) :
    Underway resolver next (importers ++ [name]) schema :=
  { underway with lacks := underway.lacks.append_singleton fresh }

theorem Appends.nothing (schema : Schema) (wanted : List String)
    {outcome : Except LoadError Unit}
    (visits : outcome = .ok () → PostOrder next schema.fileNames wanted []) :
    Appends next schema wanted (outcome, schema) [] where
  fileNames_eq := (List.append_nil _).symm
  postOrder := visits
  leadsTo := fun _ member => absurd member List.not_mem_nil

/-- What the imports of a file lead to, the file leads to. -/
theorem Appends.leadsTo_of_imports {schema : Schema} {name : String}
    {result : Except LoadError Unit × Schema} {inner : List String}
    (imports : Appends next schema (next name) result inner) :
    ∀ other ∈ inner, ∃ start ∈ [name], LeadsTo next start other := by
  intro other member
  rcases imports.leadsTo other member with ⟨start, edge, leads⟩
  exact ⟨name, List.mem_singleton_self name, .head edge leads⟩

/-- A file whose imports cannot be loaded is not appended. -/
theorem Appends.importFailed {schema after : Schema} {name : String} {error : LoadError}
    {inner : List String}
    (imports : Appends next schema (next name) (.error error, after) inner) :
    Appends next schema [name] (.error error, after) inner where
  fileNames_eq := imports.fileNames_eq
  postOrder := nofun
  leadsTo := imports.leadsTo_of_imports

/-- A file is committed after its imports were loaded. -/
theorem Appends.commit {schema after : Schema} {name : String} {file : SourceFile}
    {inner : List String}
    (imports : Appends next schema (next name) (.ok (), after) inner)
    (fresh : name ∉ schema.fileNames) (named : file.name = name) (isRoot : Bool) :
    ∃ order, Appends next schema [name] (rules.commit after file isRoot) order := by
  have insideLeads := imports.leadsTo_of_imports
  rcases commit_cases rules after file isRoot with ⟨grown, added, result⟩ | ⟨error, -, result⟩
  · rcases exists_of_add_eq_ok added with ⟨loaded, linked, -, rfl⟩
    rw [result]
    refine ⟨inner ++ [name], ?_, fun _ => .visited fresh (imports.postOrder rfl) (.done _), ?_⟩
    · rw [Schema.fileNames_push, linked.name_eq, named, imports.fileNames_eq, List.append_assoc]
    · intro other member
      rcases List.mem_append.mp member with member | member
      · exact insideLeads other member
      · rw [List.mem_singleton.mp member]
        exact ⟨name, List.mem_singleton_self name, .refl⟩
  · rw [result]
    exact ⟨inner, imports.fileNames_eq, nofun, insideLeads⟩

theorem load_appends (names : resolver.NamesFiles) :
    (∀ importers schema name result,
      rules.load resolver importers schema name = some result →
      Underway resolver next importers schema →
      ∃ order, Appends next schema [name] result order) ∧
    ∀ importers file statements schema result,
      rules.loadImports resolver importers file statements schema = some result →
      Underway resolver next importers schema →
      ∃ order, Appends next schema (statements.map Syntax.Import.file) result order := by
  apply load_induction rules resolver
  case circular =>
    intro importers schema name cyclic underway
    exact ⟨[], .nothing schema [name] nofun⟩
  case present =>
    intro importers schema name cyclic known underway
    rcases underway.wellFormed with ⟨opened, wellFormed⟩
    have member := wellFormed.mem_fileNames_iff.mpr known
    exact ⟨[], .nothing schema [name] fun _ => .known member (.done _)⟩
  case unreadable =>
    intro importers schema name error cyclic fresh opened underway
    exact ⟨[], .nothing schema [name] nofun⟩
  case importFailed =>
    intro importers schema name file error after cyclic fresh opened run induction underway
    rcases induction (underway.append_singleton fresh) with ⟨inner, imports⟩
    rw [← underway.next_eq name file fresh opened] at imports
    exact ⟨inner, imports.importFailed⟩
  case committed =>
    intro importers schema name file after cyclic fresh opened run induction underway
    rcases induction (underway.append_singleton fresh) with ⟨inner, imports⟩
    rw [← underway.next_eq name file fresh opened] at imports
    rcases underway.wellFormed with ⟨roots, wellFormed⟩
    exact imports.commit (wellFormed.not_mem_fileNames_iff.mpr fresh) (names name file opened)
      false
  case finished =>
    intro importers file schema underway
    exact ⟨[], .nothing schema [] fun _ => .done _⟩
  case failed =>
    intro importers file statement statements schema error after run induction underway
    rcases induction underway with ⟨order, first⟩
    refine ⟨order, first.fileNames_eq, nofun, ?_⟩
    intro other member
    rcases first.leadsTo other member with ⟨start, listed, leads⟩
    exact ⟨statement.file, List.mem_cons_self, List.mem_singleton.mp listed ▸ leads⟩
  case loaded =>
    intro importers file statement statements schema middle result run restRun first rest underway
    have loads := load_steps.1 _ _ _ _ run fun _ => underway.lacks
    have between := underway.steps names loads.steps (loads.lacks names)
    rcases first underway with ⟨front, firstAppends⟩
    rcases rest between with ⟨back, restAppends⟩
    refine ⟨front ++ back, ?_, fun succeeded => ?_, fun other member => ?_⟩
    · rw [restAppends.fileNames_eq, firstAppends.fileNames_eq, List.append_assoc]
    · have restOrder := restAppends.postOrder succeeded
      rw [firstAppends.fileNames_eq] at restOrder
      exact (firstAppends.postOrder rfl).cons restOrder
    · rcases List.mem_append.mp member with member | member
      · rcases firstAppends.leadsTo other member with ⟨start, listed, leads⟩
        exact ⟨statement.file, List.mem_cons_self, List.mem_singleton.mp listed ▸ leads⟩
      · rcases restAppends.leadsTo other member with ⟨start, listed, leads⟩
        exact ⟨start, List.mem_cons_of_mem _ listed, leads⟩

/-- Opening a file that is not loaded appends the file after its imports. -/
theorem loadRoot_appends (names : resolver.NamesFiles) {schema : Schema} {name : String}
    {file : SourceFile} {result : Except LoadError Unit × Schema}
    (run : rules.loadRoot resolver schema name file = some result)
    (opened : resolver.openFile name = .ok file) (fresh : schema.fileNamed? name = none)
    (underway : Underway resolver next [name] schema) :
    ∃ order, Appends next schema [name] result order := by
  rw [loadRoot_eq, Option.map_eq_some_iff] at run
  rcases run with ⟨⟨outcome, middle⟩, importsRun, rfl⟩
  rcases (load_appends names).2 _ _ _ _ _ importsRun underway with ⟨inner, imports⟩
  rw [← underway.next_eq name file fresh opened] at imports
  rcases underway.wellFormed with ⟨roots, wellFormed⟩
  cases outcome with
  | error error => exact ⟨inner, imports.importFailed⟩
  | ok _ =>
      exact imports.commit (wellFormed.not_mem_fileNames_iff.mpr fresh) (names name file opened)
        true

end Rules

end ProtoSchema
