import ProtoSchema.Proofs.Compiler.Acceptance
import ProtoSchema.Proofs.Compiler.Sight
/-! # Loading a file into two schemas

By the rules of a new compiler, a file is loaded into all accepted schemas with the same
outcome. A loading into the one schema is a loading into the other, except that each
skips what it has already; and what one of them has can be loaded into every other.
-/

namespace ProtoSchema

namespace Rules

theorem fst_commit (rules : Rules) (schema : Schema) (file : SourceFile) (isRoot : Bool) :
    (rules.commit schema file isRoot).1 = (rules.add schema file isRoot).map fun _ => () := by
  rw [commit]
  cases rules.add schema file isRoot <;> rfl

end Rules

namespace Schema

variable {resolver : Resolver}

/-! ## Accepted schemas along a loading -/

namespace Accepted

variable {schema : Schema} {importers : List String}

theorem load (accepted : schema.Accepted resolver) (names : resolver.NamesFiles)
    (lacks : schema.Lacks importers) {name : String}
    {result : Except LoadError Unit × Schema}
    (run : ({} : Rules).load resolver importers schema name = some result) :
    result.2.Accepted resolver ∧ result.2.Lacks importers := by
  have loads := Rules.load_steps.1 _ _ _ _ run fun _ => lacks
  exact ⟨accepted.steps names loads.steps, loads.lacks names⟩

/-- What is found under a name is the file that the resolver opens under this name. -/
theorem exists_of_named (accepted : schema.Accepted resolver) {name : String} {id : FileId}
    (named : schema.fileNamed? name = some id) :
    ∃ loaded file, schema.files[id]? = some loaded ∧ loaded.Settled schema id file ∧
      loaded.file.name = name ∧ resolver.openFile name = .ok file := by
  rcases accepted.settled.indexed _ _ named with ⟨loaded, present, rfl⟩
  rcases accepted.settled.files present with ⟨file, opened, own⟩
  refine ⟨loaded, file, present, own, rfl, ?_⟩
  rw [own.name_eq]
  exact opened

/-- When its imports have been loaded, the schema is ready for a file. -/
theorem awaits (accepted : schema.Accepted resolver) (names : resolver.NamesFiles)
    (lacks : schema.Lacks importers) {name : String} {file : SourceFile}
    (opened : resolver.openFile name = .ok file) (onWay : name ∈ importers) {after : Schema}
    (run : ({} : Rules).loadImports resolver importers file file.tree.imports schema =
      some (.ok (), after)) :
    after.Accepted resolver ∧ after.Awaits resolver file := by
  have loads := Rules.load_steps.2 _ _ _ _ _ run fun _ => lacks
  exact ⟨accepted.steps names loads.steps, loads.awaits names opened onWay⟩

end Accepted

/-! ## Files that one of two schemas has -/

section OneHas

variable {left : Schema} {first : LoadedFile} {file : SourceFile} {id : FileId}

/-- The files on the way come after a file in a schema that may have them. -/
def After (schema : Schema) (id : FileId) (names : List String) : Prop :=
  ∀ name ∈ names, ∀ other, schema.fileNamed? name = some other → id < other

/-- If every import of a file can be loaded, the file can be. -/
theorem loadImports_of_accepted (names : resolver.NamesFiles)
    (leftAccepted : left.Accepted resolver) (inLeft : left.files[id]? = some first)
    (own : first.Settled left id file)
    (earlier : ∀ target < id, ∀ imported, left.files[target]? = some imported →
      ∀ right : Schema, right.Accepted resolver → ∀ importers, right.Lacks importers →
        left.After target importers → ∃ after,
          ({} : Rules).load resolver importers right imported.file.name = some (.ok (), after))
    {importers : List String} (later : ∀ target < id, left.After target importers)
    (statements : List Syntax.Import) (written : ∀ statement ∈ statements,
      statement ∈ file.tree.imports)
    {right : Schema} (rightAccepted : right.Accepted resolver) (lacks : right.Lacks importers) :
    ∃ after, ({} : Rules).loadImports resolver importers file statements right =
      some (.ok (), after) := by
  induction statements generalizing right with
  | nil => exact ⟨right, by rw [Rules.loadImports.eq_def]⟩
  | cons statement statements induction =>
      rcases leftAccepted.imported inLeft own statement (written statement List.mem_cons_self) with
        ⟨target, named, before⟩
      rcases leftAccepted.settled.indexed _ _ named with ⟨imported, present, name⟩
      rcases earlier target before imported present right rightAccepted importers lacks
        (later target before) with ⟨middle, run⟩
      rw [name] at run
      rcases rightAccepted.load names lacks run with ⟨middleAccepted, middleLacks⟩
      rcases induction (fun other member => written other (List.mem_cons_of_mem statement member))
        middleAccepted middleLacks with ⟨after, rest⟩
      refine ⟨after, ?_⟩
      rw [Rules.loadImports.eq_def]
      simp only [run, Option.bind_eq_bind, Option.bind_some]
      exact rest

/-- A file of one schema, loaded into another one that lacks it: its imports can be
loaded, and then the file is accepted. -/
theorem loads_of_accepted (names : resolver.NamesFiles) (leftAccepted : left.Accepted resolver)
    (inLeft : left.files[id]? = some first) (own : first.Settled left id file)
    (opened : resolver.openFile file.name = .ok file)
    (earlier : ∀ target < id, ∀ imported, left.files[target]? = some imported →
      ∀ right : Schema, right.Accepted resolver → ∀ importers, right.Lacks importers →
        left.After target importers → ∃ after,
          ({} : Rules).load resolver importers right imported.file.name = some (.ok (), after))
    {right : Schema} (rightAccepted : right.Accepted resolver) {importers : List String}
    (lacks : right.Lacks importers) (later : left.After id importers)
    (fresh : right.fileNamed? file.name = none) :
    ∃ after, ({} : Rules).loadImports resolver (importers ++ [file.name]) file file.tree.imports
        right = some (.ok (), after) ∧
      ∀ isRoot, ∃ next, ({} : Rules).commit after file isRoot = (.ok (), next) := by
  have named : left.fileNamed? file.name = some id := by
    rw [← own.name_eq]
    exact leftAccepted.named inLeft
  have allLater : ∀ target < id, left.After target (importers ++ [file.name]) := by
    intro target before name member other found
    rcases List.mem_append.mp member with member | member
    · exact Nat.lt_trans before (later name member other found)
    · rw [List.mem_singleton.mp member, named] at found
      cases found
      exact before
  have allLack := lacks.append_singleton fresh
  rcases loadImports_of_accepted names leftAccepted inLeft own earlier allLater
    file.tree.imports (fun _ member => member) rightAccepted allLack with ⟨after, run⟩
  refine ⟨after, run, fun isRoot => ?_⟩
  rcases rightAccepted.awaits names allLack opened
    (List.mem_append_right importers (List.mem_singleton_self file.name)) run with
    ⟨afterAccepted, awaits⟩
  rcases add_of_accepted leftAccepted afterAccepted.toFaithful inLeft own awaits isRoot with
    ⟨next, added⟩
  refine ⟨next, ?_⟩
  rw [Rules.commit, added]

/-- A file that one schema has can be loaded into every other, unless the way to it
leads through the file itself or one of its imports. -/
theorem load_of_accepted (names : resolver.NamesFiles) (leftAccepted : left.Accepted resolver)
    (inLeft : left.files[id]? = some first) {right : Schema}
    (rightAccepted : right.Accepted resolver) {importers : List String}
    (lacks : right.Lacks importers) (later : left.After id importers) :
    ∃ after, ({} : Rules).load resolver importers right first.file.name =
      some (.ok (), after) := by
  induction id using Nat.strongRecOn generalizing first right importers with
  | ind id induction =>
      have noCycle : first.file.name ∉ importers := by
        intro member
        exact Nat.lt_irrefl id (later _ member id (leftAccepted.named inLeft))
      by_cases found : (right.fileNamed? first.file.name).isSome
      · exact ⟨right, Rules.load_of_present noCycle found⟩
      · rcases leftAccepted.settled.files inLeft with ⟨file, opened, own⟩
        have fresh : right.fileNamed? file.name = none := by
          rw [← own.name_eq]
          simpa using found
        rcases loads_of_accepted names leftAccepted inLeft own opened
          (fun target before imported present other otherAccepted otherImporters otherLacks
            otherLater => induction target before present otherAccepted otherLacks otherLater)
          rightAccepted lacks later fresh with ⟨after, run, commits⟩
        rcases commits false with ⟨next, commit⟩
        rw [own.name_eq] at noCycle ⊢
        refine ⟨next, ?_⟩
        rw [Rules.load_of_fresh noCycle fresh opened, run]
        exact congrArg some commit

theorem Lacks.after {names : List String} (lacks : left.Lacks names) : left.After id names := by
  intro name member other found
  rw [lacks name member] at found
  cases found

/-- A file that one schema has is loaded without an error into every schema that lacks
it, and so are its imports. -/
theorem load_of_named (names : resolver.NamesFiles) (leftAccepted : left.Accepted resolver)
    {name : String} (named : (left.fileNamed? name).isSome) {right : Schema}
    (rightAccepted : right.Accepted resolver) {importers : List String}
    (leftLacks : left.Lacks importers) (rightLacks : right.Lacks importers) :
    ∃ after, ({} : Rules).load resolver importers right name = some (.ok (), after) := by
  rcases Option.isSome_iff_exists.mp named with ⟨id, named⟩
  rcases leftAccepted.settled.indexed _ _ named with ⟨first, inLeft, rfl⟩
  exact load_of_accepted names leftAccepted inLeft rightAccepted rightLacks leftLacks.after

end OneHas

/-! ## Two loadings -/

/-- A file that fails in one schema is in no other, since it could be loaded then. -/
theorem fresh_of_load_eq_error (names : resolver.NamesFiles) {left right after : Schema}
    (leftAccepted : left.Accepted resolver) (rightAccepted : right.Accepted resolver)
    {importers : List String} (leftLacks : left.Lacks importers)
    (rightLacks : right.Lacks importers) {name : String} {error : LoadError}
    (run : ({} : Rules).load resolver importers left name = some (.error error, after)) :
    right.fileNamed? name = none := by
  by_contra found
  rcases load_of_named names rightAccepted (Option.isSome_iff_ne_none.mpr found) leftAccepted
    rightLacks leftLacks with ⟨leftAfter, loads⟩
  rw [run] at loads
  cases loads

/-- After its imports, a file is accepted by both schemas or by none. -/
theorem commit_alike (names : resolver.NamesFiles) {left right : Schema}
    (leftAccepted : left.Accepted resolver) (rightAccepted : right.Accepted resolver)
    {importers : List String} (leftLacks : left.Lacks importers)
    (rightLacks : right.Lacks importers) {name : String} {file : SourceFile}
    (opened : resolver.openFile name = .ok file) (onWay : name ∈ importers)
    {leftAfter rightAfter : Schema}
    (leftRun : ({} : Rules).loadImports resolver importers file file.tree.imports left =
      some (.ok (), leftAfter))
    (rightRun : ({} : Rules).loadImports resolver importers file file.tree.imports right =
      some (.ok (), rightAfter)) (isRoot : Bool) :
    (({} : Rules).commit rightAfter file isRoot).1 =
      (({} : Rules).commit leftAfter file isRoot).1 := by
  rcases leftAccepted.awaits names leftLacks opened onWay leftRun with ⟨leftNext, leftAwaits⟩
  rcases rightAccepted.awaits names rightLacks opened onWay rightRun with
    ⟨rightNext, rightAwaits⟩
  rw [Rules.fst_commit, Rules.fst_commit]
  exact add_alike leftNext.toFaithful rightNext.toFaithful leftAwaits rightAwaits isRoot isRoot

/-- A loading that has an outcome has the same one in every other accepted schema. -/
theorem load_alike (names : resolver.NamesFiles) :
    (∀ importers left name result,
      ({} : Rules).load resolver importers left name = some result →
      left.Accepted resolver → left.Lacks importers →
      ∀ right : Schema, right.Accepted resolver → right.Lacks importers → ∃ after,
        ({} : Rules).load resolver importers right name = some (result.1, after)) ∧
    ∀ importers file statements left result,
      ({} : Rules).loadImports resolver importers file statements left = some result →
      left.Accepted resolver → left.Lacks importers →
      ∀ right : Schema, right.Accepted resolver → right.Lacks importers → ∃ after,
        ({} : Rules).loadImports resolver importers file statements right =
          some (result.1, after) := by
  apply Rules.load_induction {} resolver
  case circular =>
    intro importers left name cyclic leftAccepted leftLacks right rightAccepted rightLacks
    exact ⟨right, by rw [Rules.load, if_pos cyclic]⟩
  case present =>
    intro importers left name noCycle found leftAccepted leftLacks right rightAccepted rightLacks
    exact load_of_named names leftAccepted found rightAccepted leftLacks rightLacks
  case unreadable =>
    intro importers left name error noCycle fresh opened leftAccepted leftLacks right
      rightAccepted rightLacks
    have leftRun := @Rules.load_of_unreadable {} _ _ _ _ _ noCycle fresh opened
    have freshRight := fresh_of_load_eq_error names leftAccepted rightAccepted leftLacks rightLacks
      leftRun
    exact ⟨right, Rules.load_of_unreadable noCycle freshRight opened⟩
  case importFailed =>
    intro importers left name file error leftAfter noCycle fresh opened run induction leftAccepted
      leftLacks right rightAccepted rightLacks
    have leftRun : ({} : Rules).load resolver importers left name =
        some (.error error, leftAfter) := by
      rw [Rules.load_of_fresh noCycle fresh opened, run]
      rfl
    have freshRight := fresh_of_load_eq_error names leftAccepted rightAccepted leftLacks rightLacks
      leftRun
    rcases induction leftAccepted (leftLacks.append_singleton fresh) right rightAccepted
      (rightLacks.append_singleton freshRight) with ⟨rightAfter, rightRun⟩
    refine ⟨rightAfter, ?_⟩
    rw [Rules.load_of_fresh noCycle freshRight opened, rightRun]
    rfl
  case committed =>
    intro importers left name file leftAfter noCycle fresh opened run induction leftAccepted
      leftLacks right rightAccepted rightLacks
    by_cases found : (right.fileNamed? name).isSome
    · have leftRun : ({} : Rules).load resolver importers left name =
          some (({} : Rules).commit leftAfter file false) := by
        rw [Rules.load_of_fresh noCycle fresh opened, run]
        rfl
      rcases load_of_named names rightAccepted found leftAccepted rightLacks leftLacks with
        ⟨leftNext, loads⟩
      rw [leftRun] at loads
      rw [Option.some.inj loads]
      exact ⟨right, Rules.load_of_present noCycle found⟩
    · have freshRight : right.fileNamed? name = none := by simpa using found
      have leftLacks := leftLacks.append_singleton fresh
      have rightLacks := rightLacks.append_singleton freshRight
      rcases induction leftAccepted leftLacks right rightAccepted rightLacks with
        ⟨rightAfter, rightRun⟩
      have same := commit_alike names leftAccepted rightAccepted leftLacks rightLacks opened
        (List.mem_append_right importers (List.mem_singleton_self name)) run rightRun false
      refine ⟨(({} : Rules).commit rightAfter file false).2, ?_⟩
      rw [Rules.load_of_fresh noCycle freshRight opened, rightRun, ← same]
      rfl
  case finished =>
    intro importers file left leftAccepted leftLacks right rightAccepted rightLacks
    exact ⟨right, by rw [Rules.loadImports.eq_def]⟩
  case failed =>
    intro importers file statement statements left error after run induction leftAccepted
      leftLacks right rightAccepted rightLacks
    rcases induction leftAccepted leftLacks right rightAccepted rightLacks with
      ⟨rightAfter, rightRun⟩
    refine ⟨rightAfter, ?_⟩
    rw [Rules.loadImports.eq_def]
    simp only [rightRun, Option.bind_eq_bind, Option.bind_some]
  case loaded =>
    intro importers file statement statements left middle result run restRun first rest
      leftAccepted leftLacks right rightAccepted rightLacks
    rcases first leftAccepted leftLacks right rightAccepted rightLacks with
      ⟨rightMiddle, rightRun⟩
    rcases leftAccepted.load names leftLacks run with ⟨middleAccepted, middleLacks⟩
    rcases rightAccepted.load names rightLacks rightRun with
      ⟨rightMiddleAccepted, rightMiddleLacks⟩
    rcases rest middleAccepted middleLacks rightMiddle rightMiddleAccepted rightMiddleLacks with
      ⟨rightAfter, rightRest⟩
    refine ⟨rightAfter, ?_⟩
    rw [Rules.loadImports.eq_def]
    simp only [rightRun, Option.bind_eq_bind, Option.bind_some]
    exact rightRest

end Schema

end ProtoSchema
