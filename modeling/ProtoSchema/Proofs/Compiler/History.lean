import ProtoSchema.Proofs.Compiler.Comparison
/-! # Independence of history

By the rules of a new compiler, neither the outcome of opening a file nor what the
loaded files contain depends on what was opened before.
-/

namespace ProtoSchema

namespace Schema

variable {resolver : Resolver} {left right : Schema}

/-! ## Loading a file that is opened itself -/

/-- If one schema has the file, it is loaded into the other without an error. -/
theorem loadRoot_of_named (names : resolver.NamesFiles) (leftAccepted : left.Accepted resolver)
    (rightAccepted : right.Accepted resolver) {name : String} {id : FileId}
    (named : left.fileNamed? name = some id) (fresh : right.fileNamed? name = none)
    {file : SourceFile} (opened : resolver.openFile name = .ok file) :
    ∃ after, ({} : Rules).loadRoot resolver right name file = some (.ok (), after) := by
  rcases leftAccepted.exists_of_named named with ⟨first, source, inLeft, own, -, found⟩
  rw [opened] at found
  cases found
  have sameName := names name file opened
  rw [← sameName] at opened fresh ⊢
  have nothing : right.Lacks [] := fun _ member => by cases member
  rcases loads_of_accepted names leftAccepted inLeft own opened
    (fun _ _ _ present other otherAccepted _ otherLacks later =>
      load_of_accepted names leftAccepted present otherAccepted otherLacks later)
    rightAccepted nothing (fun _ member => by cases member) fresh with ⟨after, run, commits⟩
  rcases commits true with ⟨next, commit⟩
  rw [List.nil_append] at run
  refine ⟨next, ?_⟩
  rw [Rules.loadRoot_eq, run]
  exact congrArg some commit

theorem exists_loadRoot_alike (names : resolver.NamesFiles)
    (leftAccepted : left.Accepted resolver) (rightAccepted : right.Accepted resolver)
    {name : String} (leftFresh : left.fileNamed? name = none)
    (rightFresh : right.fileNamed? name = none) {file : SourceFile}
    (opened : resolver.openFile name = .ok file) {result : Except LoadError Unit × Schema}
    (run : ({} : Rules).loadRoot resolver left name file = some result) :
    ∃ after, ({} : Rules).loadRoot resolver right name file = some (result.1, after) := by
  have leftLacks := lacks_singleton leftFresh
  have rightLacks := lacks_singleton rightFresh
  rw [Rules.loadRoot_eq, Option.map_eq_some_iff] at run
  rcases run with ⟨⟨outcome, leftAfter⟩, leftRun, rfl⟩
  rcases (load_alike names).2 _ _ _ _ _ leftRun leftAccepted leftLacks right rightAccepted
    rightLacks with ⟨rightAfter, rightRun⟩
  rw [Rules.loadRoot_eq, rightRun]
  cases outcome with
  | error error => exact ⟨rightAfter, rfl⟩
  | ok _ =>
      have same := commit_alike names leftAccepted rightAccepted leftLacks rightLacks opened
        (List.mem_singleton_self name) leftRun rightRun true
      refine ⟨(({} : Rules).commit rightAfter file true).2, congrArg some ?_⟩
      exact Prod.ext same rfl

/-- A file that is new to both schemas is loaded into both with the same outcome, or
into neither with any. -/
theorem loadRoot_alike (names : resolver.NamesFiles) (leftAccepted : left.Accepted resolver)
    (rightAccepted : right.Accepted resolver) {name : String}
    (leftFresh : left.fileNamed? name = none) (rightFresh : right.fileNamed? name = none)
    {file : SourceFile} (opened : resolver.openFile name = .ok file) :
    (({} : Rules).loadRoot resolver right name file).map Prod.fst =
      (({} : Rules).loadRoot resolver left name file).map Prod.fst := by
  cases leftRun : ({} : Rules).loadRoot resolver left name file with
  | some result =>
      rcases exists_loadRoot_alike names leftAccepted rightAccepted leftFresh rightFresh opened
        leftRun with ⟨after, rightRun⟩
      rw [rightRun]
      rfl
  | none =>
      cases rightRun : ({} : Rules).loadRoot resolver right name file with
      | none => rfl
      | some result =>
          rcases exists_loadRoot_alike names rightAccepted leftAccepted rightFresh leftFresh opened
            rightRun with ⟨after, impossible⟩
          rw [leftRun] at impossible
          cases impossible

end Schema

/-! ## Compilers with the rules of a new one -/

namespace Compiler

/-- A compiler with the rules of a new one, whose files have all been accepted. -/
structure Accepting (resolver : Resolver) (compiler : Compiler) : Prop where
  resolver_eq : compiler.resolver = resolver
  rules_eq : compiler.rules = {}
  accepted : compiler.schema.Accepted resolver

variable {resolver : Resolver}

namespace Accepting

theorem empty : ({ resolver } : Compiler).Accepting resolver where
  resolver_eq := rfl
  rules_eq := rfl
  accepted := .empty

theorem openFile {compiler : Compiler} (accepting : compiler.Accepting resolver)
    (names : resolver.NamesFiles) (path : Path) :
    (compiler.openFile path).2.Accepting resolver := by
  rcases accepting with ⟨rfl, rules, accepted⟩
  have opens := compiler.opens_openFile path
  generalize compiler.openFile path = result at opens
  cases opens with
  | refused error => exact ⟨rfl, rules, accepted⟩
  | reopened target named => exact ⟨rfl, rules, accepted.markRoot _⟩
  | @loaded name included file result middle target opened loads =>
      refine ⟨rfl, rules, ?_⟩
      rw [rules] at loads
      have middleAccepted := accepted.steps names loads.steps
      rcases loads.outcome with ⟨error, equal⟩ | ⟨equal, awaits⟩
      · rw [equal]
        exact middleAccepted
      · rw [equal]
        exact middleAccepted.commit (awaits names) true

end Accepting

/-! ## Opening a file with two compilers -/

theorem fst_reopen {compiler : Compiler} (accepting : compiler.Accepting resolver)
    {name : String} {id : FileId} (named : compiler.schema.fileNamed? name = some id)
    {file : SourceFile} (opened : resolver.openFile name = .ok file) (included : Bool)
    (path : Path) :
    (compiler.reopen id name included path).1 =
      checkShadow name (if included then file.path else none) path := by
  rcases accepting.accepted.exists_of_named named with ⟨loaded, source, present, own, -, found⟩
  rw [opened] at found
  cases found
  simp only [reopen, present, Option.bind_some, own.path_eq]
  cases checkShadow name (if included then file.path else none) path <;> rfl

theorem fst_openNew_of_named (names : resolver.NamesFiles) {left right : Compiler}
    (leftAccepting : left.Accepting resolver) (rightAccepting : right.Accepting resolver)
    {name : String} {id : FileId} (named : left.schema.fileNamed? name = some id)
    (fresh : right.schema.fileNamed? name = none) {file : SourceFile}
    (opened : resolver.openFile name = .ok file) (included : Bool) (path : Path) :
    (right.openNew name included path).1 =
      checkShadow name (if included then file.path else none) path := by
  rcases Schema.loadRoot_of_named names leftAccepting.accepted rightAccepting.accepted named fresh
    opened with ⟨after, run⟩
  simp only [openNew, rightAccepting.resolver_eq, rightAccepting.rules_eq, opened, run]
  cases checkShadow name (if included then file.path else none) path <;> rfl

theorem fst_openNew_alike (names : resolver.NamesFiles) {left right : Compiler}
    (leftAccepting : left.Accepting resolver) (rightAccepting : right.Accepting resolver)
    {name : String} (leftFresh : left.schema.fileNamed? name = none)
    (rightFresh : right.schema.fileNamed? name = none) (included : Bool) (path : Path) :
    (right.openNew name included path).1 = (left.openNew name included path).1 := by
  rw [openNew, openNew, leftAccepting.resolver_eq, rightAccepting.resolver_eq,
    leftAccepting.rules_eq, rightAccepting.rules_eq]
  cases opened : resolver.openFile name with
  | error error => rfl
  | ok file =>
      dsimp only
      have same := Schema.loadRoot_alike names leftAccepting.accepted rightAccepting.accepted
        leftFresh rightFresh opened
      cases checkShadow name (if included then file.path else none) path with
      | error error => rfl
      | ok _ =>
          dsimp only
          cases leftRun : ({} : Rules).loadRoot resolver left.schema name file with
          | none =>
              rw [leftRun, Option.map_none, Option.map_eq_none_iff] at same
              rw [same]
          | some result =>
              rw [leftRun, Option.map_some, Option.map_eq_some_iff] at same
              rcases same with ⟨rightResult, rightRun, equal⟩
              rw [rightRun]
              exact equal

/-- Whatever two compilers have loaded, they open a file with the same outcome. -/
theorem fst_openFile_alike (names : resolver.NamesFiles) {left right : Compiler}
    (leftAccepting : left.Accepting resolver) (rightAccepting : right.Accepting resolver)
    (path : Path) : (right.openFile path).1 = (left.openFile path).1 := by
  have sameTarget : right.target? path = left.target? path := by
    rw [target?, target?, leftAccepting.resolver_eq, rightAccepting.resolver_eq]
  rw [openFile, openFile, sameTarget]
  cases left.target? path with
  | none => rfl
  | some found =>
      rcases found with ⟨name, included⟩
      dsimp only
      cases leftNamed : left.schema.fileNamed? name with
      | some id =>
          rcases leftAccepting.accepted.exists_of_named leftNamed with ⟨-, file, -, -, -, opened⟩
          dsimp only
          rw [fst_reopen leftAccepting leftNamed opened]
          cases rightNamed : right.schema.fileNamed? name with
          | some other => exact fst_reopen rightAccepting rightNamed opened included path
          | none =>
              exact fst_openNew_of_named names leftAccepting rightAccepting leftNamed rightNamed
                opened included path
      | none =>
          cases rightNamed : right.schema.fileNamed? name with
          | some id =>
              rcases rightAccepting.accepted.exists_of_named rightNamed with
                ⟨-, file, -, -, -, opened⟩
              dsimp only
              rw [fst_reopen rightAccepting rightNamed opened,
                fst_openNew_of_named names rightAccepting leftAccepting rightNamed leftNamed opened]
          | none =>
              exact fst_openNew_alike names leftAccepting rightAccepting leftNamed rightNamed
                included path

end Compiler

/-! ## Agreement of schemas -/

namespace Schema

/-- A file that two schemas have under one name is the same in both, and the same is
seen in it, if the numbers of files are translated by the names of the files. -/
structure AgreesOn (left right : Schema) (name : String) (i j : FileId) : Prop where
  file_eq : ∃ file, left.file? i = some file ∧ file.name = name ∧
    right.file? j = some (file.renumber (left.translate right))
  resolve_eq : ∀ written, right.resolve j written =
    (left.resolve i written).map (UserType.renumber (left.translate right))
  extensions_eq : ∀ extendee, right.extensions j extendee =
    (left.extensions i extendee).map (DeclarationId.renumber (left.translate right))

/-- Two schemas agree on every file that both have. -/
def Agrees (left right : Schema) : Prop :=
  ∀ name i j, left.fileNamed? name = some i → right.fileNamed? name = some j →
    left.AgreesOn right name i j

theorem Faithful.agrees {resolver : Resolver} {left right : Schema}
    (leftFaithful : left.Faithful resolver) (rightFaithful : right.Faithful resolver) :
    left.Agrees right := by
  intro name i j leftNamed rightNamed
  rcases leftFaithful.settled.indexed _ _ leftNamed with ⟨first, inLeft, rfl⟩
  have shares : left.Shares right i :=
    ⟨first, inLeft, by rw [rightNamed, Option.isSome_some]⟩
  rw [← translate_of_getElem? inLeft rightNamed]
  have held : left.file? i = some first.file := by rw [file?, inLeft, Option.map_some]
  refine { file_eq := ⟨first.file, held, rfl, ?_⟩, resolve_eq := ?_, extensions_eq := ?_ }
  · rw [file?_translate leftFaithful rightFaithful shares, held, Option.map_some]
  · intro written
    exact corresponds_visible? leftFaithful rightFaithful shares (qualify written)
  · intro extendee
    exact (visibleExtensions_translate leftFaithful rightFaithful shares (qualify extendee)).1

end Schema

/-! ## Histories -/

namespace Session

variable {resolver : Resolver}

theorem accepting_run (names : resolver.NamesFiles) (paths : List Path) :
    (run resolver (paths.map Operation.openFile)).compiler.Accepting resolver := by
  have all : ∀ session : Session, session.compiler.Accepting resolver →
      ((paths.map Operation.openFile).foldl apply session).compiler.Accepting resolver := by
    induction paths with
    | nil => exact fun _ accepting => accepting
    | cons path paths induction =>
        intro session accepting
        exact induction (session.openFile path) (accepting.openFile names path)
  exact all { compiler := { resolver } } .empty

/-- Whatever was opened before, with success or not, a file is opened with the same
outcome, and after that the compilers agree on the files that both have. -/
theorem openFile_independent (names : resolver.NamesFiles) (before otherBefore : List Path)
    (path : Path) :
    let opened := (run resolver (before.map Operation.openFile)).compiler.openFile path
    let otherOpened := (run resolver (otherBefore.map Operation.openFile)).compiler.openFile path
    opened.1 = otherOpened.1 ∧ opened.2.schema.Agrees otherOpened.2.schema := by
  intro opened otherOpened
  have accepting := accepting_run names before
  have otherAccepting := accepting_run names otherBefore
  constructor
  · exact Compiler.fst_openFile_alike names otherAccepting accepting path
  · have next := accepting.openFile names path
    have otherNext := otherAccepting.openFile names path
    exact next.accepted.toFaithful.agrees otherNext.accepted.toFaithful

/-- A file is opened alone, or after its import and a file that cannot be read. -/
theorem openFile_independent_ofMemory :
    let resolver := Resolver.ofMemory
      { sources := [("a.proto", "import \"b.proto\";"), ("b.proto", "message B \x7b\x7d")] }
    let opened := (run resolver []).compiler.openFile ⟨"a.proto"⟩
    let otherOpened :=
      (run resolver [.openFile ⟨"b.proto"⟩, .openFile ⟨"c.proto"⟩]).compiler.openFile ⟨"a.proto"⟩
    resolver.NamesFiles ∧ opened.1 = otherOpened.1 ∧
      opened.2.schema.Agrees otherOpened.2.schema := by
  intro resolver
  have names : resolver.NamesFiles := Resolver.namesFiles_ofMemory _
  exact ⟨names, openFile_independent names [] [⟨"b.proto"⟩, ⟨"c.proto"⟩] ⟨"a.proto"⟩⟩

end Session

end ProtoSchema
