import ProtoSchema.Proofs.Compiler.Gathering
import ProtoSchema.Schema.Answers
/-! # Remembered answers

While files are loaded, judged, kept and dropped, anybody may ask which extend blocks a
file sees, also about the file that is just being judged. What is remembered is always
what would be found anew.
-/

namespace ProtoSchema

/-! ## Tables of answers -/

namespace Answers

@[simp] theorem size_store (answers : Answers) (id : FileId) (fullName : String)
    (blocks : List ExtensionId) :
    (answers.store id fullName blocks).tables.size = answers.tables.size := by
  simp [store]

@[simp] theorem size_drop (answers : Answers) (id : FileId) (fullName : String) :
    (answers.drop id fullName).tables.size = answers.tables.size := by
  simp [drop]

theorem known?_store {answers : Answers} {id other : FileId} {fullName name : String}
    {blocks found : List ExtensionId}
    (known : (answers.store id fullName blocks).known? other name = some found) :
    answers.known? other name = some found ∨ other = id ∧ name = fullName ∧ found = blocks := by
  rw [known?, store, Array.getElem?_modify] at known
  by_cases equal : id = other
  · subst equal
    rw [if_pos rfl, Option.bind_map, Option.bind_eq_some_iff] at known
    rcases known with ⟨table, present, known⟩
    simp only [Function.comp_apply, List.lookup_cons] at known
    split at known
    · next same =>
        cases known
        exact .inr ⟨rfl, beq_iff_eq.mp same, rfl⟩
    · left
      rw [known?, present]
      exact known
  · rw [if_neg equal] at known
    exact .inl known

theorem known?_drop {answers : Answers} {id other : FileId} {fullName name : String}
    {found : List ExtensionId} (known : (answers.drop id fullName).known? other name = some found) :
    answers.known? other name = some found := by
  rw [known?, drop, Array.getElem?_modify] at known
  split at known
  · rw [Option.bind_map, Option.bind_eq_some_iff] at known
    rcases known with ⟨table, present, known⟩
    rw [known?, present]
    exact Schema.lookup_of_lookup_filter known
  · exact known

/-- A new file remembers nothing, and the others what they did. -/
theorem size_push_and_known? (answers : Answers) (loaded : LoadedFile) :
    (answers.push loaded).tables.size = answers.tables.size + 1 ∧
      ∀ id fullName found, (answers.push loaded).known? id fullName = some found →
        id < answers.tables.size ∧ answers.known? id fullName = some found := by
  rw [push]
  have start : ∀ id fullName found,
      ({ tables := answers.tables.push [] } : Answers).known? id fullName = some found →
        id < answers.tables.size ∧ answers.known? id fullName = some found := by
    intro id fullName found known
    rw [known?, Array.getElem?_push] at known
    split at known
    · cases known
    · rw [Option.bind_eq_some_iff] at known
      rcases known with ⟨table, present, known⟩
      refine ⟨(Array.getElem?_eq_some_iff.mp present).1, ?_⟩
      rw [known?, present]
      exact known
  have size : ({ tables := answers.tables.push [] } : Answers).tables.size =
      answers.tables.size + 1 := by simp
  generalize ({ tables := answers.tables.push [] } : Answers) = current at start size
  induction loaded.extended generalizing current with
  | nil => exact ⟨size, start⟩
  | cons entry entries induction =>
      refine induction (current.drop entry.2.file entry.1) ?_ ?_
      · intro id fullName found known
        exact start id fullName found (known?_drop known)
      · rw [size_drop, size]

theorem known?_pop {answers : Answers} {id : FileId} {fullName : String}
    {found : List ExtensionId} (known : answers.pop.known? id fullName = some found) :
    id < answers.tables.size - 1 ∧ answers.known? id fullName = some found := by
  rw [known?, Option.bind_eq_some_iff] at known
  rcases known with ⟨table, present, known⟩
  rw [pop, Array.getElem?_pop] at present
  split at present
  · next before =>
      refine ⟨before, ?_⟩
      rw [known?, present]
      exact known
  · cases present

end Answers

/-! ## Schemas in the making -/

/-- The files that are kept, the file that is being judged, and what the files remember. -/
structure Inquiry where
  schema : Schema
  judged : Option LoadedFile
  answers : Answers

namespace Inquiry

/-- The schema about which questions can be asked. -/
def current (inquiry : Inquiry) : Schema :=
  match inquiry.judged with
  | none => inquiry.schema
  | some loaded => inquiry.schema.push loaded

/-- What can happen to a schema in the making: a question is asked; a file is linked and
then kept or dropped; a file cannot be linked; a file becomes a root. -/
inductive Move (rules : Rules) : Inquiry → Inquiry → Prop
  | asked (inquiry : Inquiry) (id : FileId) (fullName : String) :
      Move rules inquiry
        { inquiry with answers := (inquiry.current.ask inquiry.answers id fullName).2 }
  | linked {schema : Schema} {answers : Answers} {file : SourceFile} {isRoot : Bool}
      {loaded : LoadedFile} (link : rules.link schema file isRoot = .ok loaded) :
      Move rules ⟨schema, none, answers⟩ ⟨schema, some loaded, answers.push loaded⟩
  | kept (schema : Schema) (loaded : LoadedFile) (answers : Answers) :
      Move rules ⟨schema, some loaded, answers⟩
        ⟨schema.push { loaded with isComplete := true }, none, answers⟩
  | dropped (schema : Schema) (loaded : LoadedFile) (answers : Answers) (name : String) :
      Move rules ⟨schema, some loaded, answers⟩ ⟨schema.forget name, none, answers.pop⟩
  | unlinked (schema : Schema) (answers : Answers) (name : String) :
      Move rules ⟨schema, none, answers⟩ ⟨schema.forget name, none, answers⟩
  | marked (schema : Schema) (answers : Answers) (root : FileId) :
      Move rules ⟨schema, none, answers⟩ ⟨schema.markRoot root, none, answers⟩

abbrev Moves (rules : Rules) : Inquiry → Inquiry → Prop :=
  Relation.ReflTransGen (Move rules)

/-! ## Every answer is right -/

/-- Every file has a table, in which every answer is what would be found anew. -/
structure Sound (inquiry : Inquiry) : Prop where
  settled : inquiry.schema.Settled fun _ => True
  judged_linked : ∀ loaded, inquiry.judged = some loaded →
    ∃ file isRoot, Rules.LinkedAs inquiry.schema file isRoot loaded
  size_eq : inquiry.answers.tables.size = inquiry.current.files.size
  answers_right : ∀ id fullName blocks,
    inquiry.answers.known? id fullName = some blocks →
      blocks = inquiry.current.visibleExtensions id fullName

namespace Sound

/-- What a file that is being judged sees is settled already. -/
theorem settled_current {inquiry : Inquiry} (sound : inquiry.Sound) :
    inquiry.current.Settled fun _ => True := by
  rw [current]
  split
  · exact sound.settled
  · next loaded judged =>
      rcases sound.judged_linked loaded judged with ⟨file, isRoot, linked⟩
      exact sound.settled.add trivial linked

theorem start : Sound ⟨{}, none, {}⟩ where
  settled := .empty
  judged_linked _ judged := by cases judged
  size_eq := rfl
  answers_right id fullName blocks known := by simp [Answers.known?] at known

/-- A question is answered as if nothing were remembered. -/
theorem ask_eq {inquiry : Inquiry} (sound : inquiry.Sound) (id : FileId) (fullName : String) :
    (inquiry.current.ask inquiry.answers id fullName).1 =
      inquiry.current.visibleExtensions id fullName := by
  rw [Schema.ask]
  split
  · next blocks known => exact sound.answers_right id fullName blocks known
  · rfl

theorem asked {inquiry : Inquiry} (sound : inquiry.Sound) (id : FileId) (fullName : String) :
    Sound { inquiry with answers := (inquiry.current.ask inquiry.answers id fullName).2 } := by
  rw [Schema.ask]
  split
  · exact sound
  · refine ⟨sound.settled, sound.judged_linked, ?_, fun other name blocks known => ?_⟩
    · exact (Answers.size_store _ _ _ _).trans sound.size_eq
    · rcases Answers.known?_store known with known | ⟨rfl, rfl, rfl⟩
      · exact sound.answers_right other name blocks known
      · rfl

theorem linked {rules : Rules} {schema : Schema} {answers : Answers} {file : SourceFile}
    {isRoot : Bool} {loaded : LoadedFile} (sound : Sound ⟨schema, none, answers⟩)
    (link : rules.link schema file isRoot = .ok loaded) :
    Sound ⟨schema, some loaded, answers.push loaded⟩ := by
  rcases answers.size_push_and_known? loaded with ⟨size, known_iff⟩
  refine ⟨sound.settled, ?_, ?_, fun id fullName blocks known => ?_⟩
  · rintro own ⟨⟩
    exact ⟨file, isRoot, Rules.link_eq_ok link⟩
  · rw [size, sound.size_eq]
    exact (Schema.size_push schema loaded).symm
  · rcases known_iff id fullName blocks known with ⟨bound, known⟩
    have earlier : id < schema.files.size := sound.size_eq ▸ bound
    exact (sound.answers_right id fullName blocks known).trans
      (Schema.visibleExtensions_push_of_lt sound.settled.ordered loaded earlier fullName).symm

theorem kept {schema : Schema} {loaded : LoadedFile} {answers : Answers}
    (sound : Sound ⟨schema, some loaded, answers⟩) :
    Sound ⟨schema.push { loaded with isComplete := true }, none, answers⟩ := by
  rcases sound.judged_linked loaded rfl with ⟨file, isRoot, link⟩
  have sameSize : (schema.push { loaded with isComplete := true }).files.size =
      (schema.push loaded).files.size := by simp
  have same : (schema.push { loaded with isComplete := true }).visibleExtensions =
      (schema.push loaded).visibleExtensions :=
    Schema.visibleExtensions_push_congr schema rfl
  refine ⟨sound.settled.add trivial link.complete, fun _ judged => (by cases judged), ?_, ?_⟩
  · exact sound.size_eq.trans sameSize.symm
  · intro id fullName blocks known
    exact (sound.answers_right id fullName blocks known).trans
      (congrFun (congrFun same id) fullName).symm

theorem dropped {schema : Schema} {loaded : LoadedFile} {answers : Answers}
    (sound : Sound ⟨schema, some loaded, answers⟩) (name : String) :
    Sound ⟨schema.forget name, none, answers.pop⟩ := by
  have size : answers.tables.size = schema.files.size + 1 :=
    sound.size_eq.trans (Schema.size_push schema loaded)
  refine ⟨sound.settled.forget name, fun _ judged => (by cases judged), ?_, ?_⟩
  · change answers.tables.pop.size = schema.files.size
    rw [Array.size_pop, size, Nat.add_sub_cancel]
  · intro id fullName blocks known
    rcases Answers.known?_pop known with ⟨bound, known⟩
    rw [size, Nat.add_sub_cancel] at bound
    have found := sound.answers_right id fullName blocks known
    have sees := Schema.visibleExtensions_push_of_lt sound.settled.ordered loaded bound fullName
    exact (found.trans sees).trans
      (congrFun (congrFun (Schema.visibleExtensions_forget schema name) id) fullName).symm

theorem unlinked {schema : Schema} {answers : Answers} (sound : Sound ⟨schema, none, answers⟩)
    (name : String) : Sound ⟨schema.forget name, none, answers⟩ where
  settled := sound.settled.forget name
  judged_linked _ judged := by cases judged
  size_eq := sound.size_eq
  answers_right id fullName blocks known :=
    (sound.answers_right id fullName blocks known).trans
      (congrFun (congrFun (Schema.visibleExtensions_forget schema name) id) fullName).symm

theorem marked {schema : Schema} {answers : Answers} (sound : Sound ⟨schema, none, answers⟩)
    (root : FileId) : Sound ⟨schema.markRoot root, none, answers⟩ where
  settled := sound.settled.markRoot root
  judged_linked _ judged := by cases judged
  size_eq := by
    have size : (schema.markRoot root).files.size = schema.files.size := by
      simp [Schema.markRoot]
    exact sound.size_eq.trans size.symm
  answers_right id fullName blocks known :=
    (sound.answers_right id fullName blocks known).trans
      (congrFun (congrFun (Schema.visibleExtensions_markRoot schema root) id) fullName).symm

theorem move {rules : Rules} {inquiry next : Inquiry} (sound : inquiry.Sound)
    (move : Move rules inquiry next) : next.Sound := by
  cases move with
  | asked _ id fullName => exact sound.asked id fullName
  | linked link => exact sound.linked link
  | kept => exact sound.kept
  | dropped _ _ _ name => exact sound.dropped name
  | unlinked _ _ name => exact sound.unlinked name
  | marked _ _ root => exact sound.marked root

theorem moves {rules : Rules} {inquiry next : Inquiry} (sound : inquiry.Sound)
    (moves : Moves rules inquiry next) : next.Sound := by
  induction moves with
  | refl => exact sound
  | tail _ move induction => exact induction.move move

end Sound

/-! ## Loading as a sequence of moves -/

/-- The answers after several questions about one schema. -/
def askAll (schema : Schema) (answers : Answers) (questions : List (FileId × String)) : Answers :=
  questions.foldl (fun answers (id, fullName) => (schema.ask answers id fullName).2) answers

variable {rules : Rules} {resolver : Resolver}

theorem moves_askAll (inquiry : Inquiry) (questions : List (FileId × String)) :
    Moves rules inquiry
      { inquiry with answers := askAll inquiry.current inquiry.answers questions } := by
  induction questions generalizing inquiry with
  | nil => exact .refl
  | cons question questions induction =>
      exact .head (.asked inquiry question.1 question.2) (induction _)

/-- A file is added or withdrawn in moves, whatever its validators ask while they judge
it. -/
theorem moves_of_commit (schema : Schema) (answers : Answers) (file : SourceFile)
    (isRoot : Bool) (questions : List (FileId × String)) :
    ∃ remembered, Moves rules ⟨schema, none, answers⟩
        ⟨(rules.commit schema file isRoot).2, none, remembered⟩ ∧
      ∀ loaded, rules.link schema file isRoot = .ok loaded →
        Moves rules
          ⟨schema, some loaded, askAll (schema.push loaded) (answers.push loaded) questions⟩
          ⟨(rules.commit schema file isRoot).2, none, remembered⟩ := by
  cases link : rules.link schema file isRoot with
  | error error =>
      rcases Rules.commit_cases rules schema file isRoot with
        ⟨next, added, -⟩ | ⟨failure, -, result⟩
      · rcases Rules.add_eq_ok_iff.mp added with ⟨loaded, linked, -⟩
        rw [link] at linked
        cases linked
      · rw [result]
        exact ⟨answers, .single (.unlinked schema answers file.name),
          fun _ linked => (by cases linked)⟩
  | ok loaded =>
      have judging : Moves rules ⟨schema, none, answers⟩
          ⟨schema, some loaded, askAll (schema.push loaded) (answers.push loaded) questions⟩ :=
        .head (.linked link) (moves_askAll ⟨schema, some loaded, answers.push loaded⟩ questions)
      rcases Rules.commit_cases rules schema file isRoot with
        ⟨next, added, result⟩ | ⟨failure, -, result⟩
      · rcases Rules.add_eq_ok_iff.mp added with ⟨own, linked, -, rfl⟩
        rw [link] at linked
        cases linked
        rw [result]
        refine ⟨_, judging.tail (.kept schema loaded _), ?_⟩
        rintro own ⟨⟩
        exact .single (.kept schema loaded _)
      · rw [result]
        refine ⟨_, judging.tail (.dropped schema loaded _ file.name), ?_⟩
        rintro own ⟨⟩
        exact .single (.dropped schema loaded _ file.name)

theorem moves_of_step {isRoot : Bool} {schema next : Schema}
    (step : Rules.Step rules resolver isRoot schema next) (answers : Answers) :
    ∃ remembered, Moves rules ⟨schema, none, answers⟩ ⟨next, none, remembered⟩ := by
  cases step with
  | @added next file adds =>
      rcases moves_of_commit schema answers file isRoot [] with ⟨remembered, moves, -⟩
      rw [Rules.commit, adds.added] at moves
      exact ⟨remembered, moves⟩
  | @withdrawn file error failed fresh =>
      rcases moves_of_commit schema answers file isRoot [] with ⟨remembered, moves, -⟩
      rw [Rules.commit, failed] at moves
      exact ⟨remembered, moves⟩

theorem moves_of_steps {schema after : Schema} (steps : Rules.Steps rules resolver schema after)
    (answers : Answers) :
    ∃ remembered, Moves rules ⟨schema, none, answers⟩ ⟨after, none, remembered⟩ := by
  induction steps with
  | refl => exact ⟨answers, .refl⟩
  | tail _ step induction =>
      rcases induction with ⟨between, before⟩
      rcases moves_of_step step between with ⟨remembered, after⟩
      exact ⟨remembered, before.trans after⟩

theorem moves_openFile (compiler : Compiler) (answers : Answers) (path : Path) :
    ∃ remembered, Moves compiler.rules ⟨compiler.schema, none, answers⟩
      ⟨(compiler.openFile path).2.schema, none, remembered⟩ := by
  have opens := compiler.opens_openFile path
  generalize compiler.openFile path = result at opens
  cases opens with
  | refused error => exact ⟨answers, .refl⟩
  | reopened target named => exact ⟨answers, .single (.marked _ _ _)⟩
  | @loaded name included file result middle target opened loads =>
      rcases moves_of_steps loads.steps answers with ⟨between, before⟩
      rcases loads.outcome with ⟨error, rfl⟩ | ⟨rfl, -⟩
      · exact ⟨between, before⟩
      · rcases moves_of_commit middle between file true [] with ⟨remembered, after, -⟩
        exact ⟨remembered, before.trans after⟩

theorem moves_openFiles (compiler : Compiler) (answers : Answers) (paths : List Path) :
    ∃ remembered, Moves compiler.rules ⟨compiler.schema, none, answers⟩
      ⟨(compiler.openFiles paths).2.schema, none, remembered⟩ := by
  induction paths generalizing compiler answers with
  | nil => exact ⟨answers, .refl⟩
  | cons path paths induction =>
      rcases moves_openFile compiler answers path with ⟨between, first⟩
      have sameRules := congrArg Compiler.rules (compiler.openFile_eq path)
      rw [Compiler.openFiles]
      cases result : compiler.openFile path with
      | mk outcome next =>
          rw [result] at first sameRules
          cases outcome with
          | error error => exact ⟨between, first⟩
          | ok _ =>
              rcases induction next between with ⟨remembered, rest⟩
              rw [sameRules] at rest
              exact ⟨remembered, first.trans rest⟩

theorem moves_apply (session : Session) (answers : Answers) (operation : Operation) :
    ∃ remembered, Moves session.compiler.rules ⟨session.compiler.schema, none, answers⟩
      ⟨(session.apply operation).compiler.schema, none, remembered⟩ := by
  cases operation with
  | openFile path => exact moves_openFile session.compiler answers path
  | openFiles paths =>
      rw [Session.apply, Session.compiler_openFiles]
      exact moves_openFiles session.compiler answers paths
  | includeImports _ => exact ⟨answers, .refl⟩
  | strictNames _ => exact ⟨answers, .refl⟩
  | addValidator _ => exact ⟨answers, .refl⟩
  | changeFiles _ => exact ⟨answers, .refl⟩

end Inquiry

/-! ## Sessions with questions -/

/-- A session between the operations of which questions are asked, and what its files
remember. -/
inductive Session.Remembers (resolver : Resolver) : Session → Answers → Prop
  | start : Remembers resolver { compiler := { resolver } } {}
  | applied {session : Session} {answers remembered : Answers} {operation : Operation}
      (before : Remembers resolver session answers)
      (moves : Inquiry.Moves session.compiler.rules ⟨session.compiler.schema, none, answers⟩
        ⟨(session.apply operation).compiler.schema, none, remembered⟩) :
      Remembers resolver (session.apply operation) remembered
  | asked {session : Session} {answers : Answers} (before : Remembers resolver session answers)
      (id : FileId) (extendee : String) :
      Remembers resolver session
        (session.compiler.schema.ask answers id (qualify extendee)).2

namespace Session

/-- Whatever is done with a new compiler, its files remember something. -/
theorem exists_remembers (resolver : Resolver) (operations : List Operation) :
    ∃ answers, Remembers resolver (run resolver operations) answers := by
  have all : ∀ session answers, Remembers resolver session answers →
      ∃ remembered, Remembers resolver (operations.foldl apply session) remembered := by
    induction operations with
    | nil => exact fun session answers before => ⟨answers, before⟩
    | cons operation operations induction =>
        intro session answers before
        rcases Inquiry.moves_apply session answers operation with ⟨remembered, moves⟩
        exact induction _ remembered (before.applied moves)
  exact all _ _ .start

theorem Remembers.sound {resolver : Resolver} {session : Session} {answers : Answers}
    (remembers : Remembers resolver session answers) :
    Inquiry.Sound ⟨session.compiler.schema, none, answers⟩ := by
  induction remembers with
  | start => exact .start
  | applied _ moves induction => exact induction.moves moves
  | asked _ id extendee induction => exact induction.asked id (qualify extendee)

/-- Whatever was opened and asked before, every file sees exactly the extend blocks that
it gathers, and its answer from memory is the same. This is so too for all questions
that are asked while files are being judged. -/
theorem extensions_of_remembers {resolver : Resolver} {session : Session} {answers : Answers}
    (remembers : Remembers resolver session answers) :
    session.compiler.schema.GathersExtensions ∧
      (∀ id extendee, (session.compiler.schema.ask answers id (qualify extendee)).1 =
        session.compiler.schema.extensions id extendee) ∧
      ∀ rules inquiry, Inquiry.Moves rules ⟨session.compiler.schema, none, answers⟩ inquiry →
        inquiry.current.GathersExtensions ∧
          ∀ id extendee, (inquiry.current.ask inquiry.answers id (qualify extendee)).1 =
            inquiry.current.extensions id extendee := by
  have sound := remembers.sound
  refine ⟨sound.settled.gathersExtensions, fun id extendee => ?_, fun rules inquiry moves => ?_⟩
  · exact sound.ask_eq id (qualify extendee)
  · have later := sound.moves moves
    exact ⟨later.settled_current.gathersExtensions,
      fun id extendee => later.ask_eq id (qualify extendee)⟩

/-- A file is asked for its extend blocks, and an importer of the file is loaded
afterwards. -/
theorem extensions_of_remembers_ofMemory :
    let resolver := Resolver.ofMemory
      { sources :=
          [("a.proto", "message A \x7b extensions 1 to 9; \x7d"),
            ("b.proto", "import \"a.proto\"; extend A \x7b optional bool b = 1; \x7d")] }
    let session := run resolver [.openFile ⟨"a.proto"⟩]
    ∃ answers, Remembers resolver session answers ∧
      ∃ later, Remembers resolver (session.apply (.openFile ⟨"b.proto"⟩)) later ∧
        ∀ id extendee,
          ((session.apply (.openFile ⟨"b.proto"⟩)).compiler.schema.ask later id
              (qualify extendee)).1 =
            (session.apply (.openFile ⟨"b.proto"⟩)).compiler.schema.extensions id extendee := by
  intro resolver session
  rcases exists_remembers resolver [.openFile ⟨"a.proto"⟩] with ⟨answers, before⟩
  have asked := before.asked 0 "A"
  rcases Inquiry.moves_apply session _ (.openFile ⟨"b.proto"⟩) with ⟨later, moves⟩
  have after := asked.applied moves
  exact ⟨_, asked, later, after, (extensions_of_remembers after).2.1⟩

end Session

end ProtoSchema
