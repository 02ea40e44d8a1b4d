import ProtoSchema.Proofs.Syntax.Pointing
/-! # Where the faults of a source lie

Every fault that is found in a source points into it: what it labels is not empty, and begins and
ends between two characters. A fault has no label only if the source ends too early, or is too large.
-/

namespace ProtoSchema

namespace Text.Position

/-- A scan comes to the last byte of a span that the bytes contain. -/
theorem isSome_scan (span : Span) (cursor : Cursor) (bytes : List UInt8)
    (inside : span.start + span.length - 1 ≤ cursor.offset + bytes.length) :
    (scan span cursor bytes).isSome := by
  induction count : bytes.length using Nat.strong_induction_on generalizing cursor bytes with
  | _ count induction =>
      subst count
      have finishes (next : Cursor) (rest : List UInt8) (shorter : rest.length < bytes.length)
          (inside : span.start + span.length - 1 ≤ next.offset + 1 + rest.length) :
          (scan.finish span next rest).isSome := by
        rw [scan.finish]
        split
        · rfl
        · exact induction rest.length shorter _ rest inside rfl
      have lineEnd (count : Nat) : (cursor.passLineEnd span.start count).offset =
          cursor.offset + count - 1 := by
        rw [Cursor.passLineEnd]
        split <;> rfl
      have byte : (cursor.passByte span.start).offset = cursor.offset := by
        rw [Cursor.passByte]
        split <;> rfl
      rw [scan.eq_def]
      split
      · rw [if_neg (by simpa using inside)]
        rfl
      · exact finishes _ _ (by simp) (by simp [lineEnd] at inside ⊢; omega)
      · exact finishes _ _ (by simp) (by simp [lineEnd] at inside ⊢; omega)
      · exact finishes _ _ (by simp) (by simp [lineEnd] at inside ⊢; omega)
      · exact finishes _ _ (by simp) (by simp [byte] at inside ⊢; omega)

end Text.Position

namespace Syntax

namespace Parser

variable {source : String} {floor : Nat} {ahead : Option (Token × Span)}

/-! ## Names -/

theorem ident_points : Points source floor ahead Anything ident := by
  refine .look_bind fun found seen => ?_
  split
  · exact .advance_bind seen (.pure_any _)
  · exact .unexpected

theorem dottedNameFrom_points (first : Ident) (followers : List Follower) :
    Points source floor ahead Anything (dottedNameFrom first followers) := by
  refine (Points.collect (.look_bind fun found seen => ?_)).bind_any fun _ => .pure_any _
  split
  · exact .advance_bind seen (ident_points.bind_any fun _ => .pure_any _)
  · split
    · exact .pure_any _
    · exact .unexpected
  · exact .unexpected

theorem dottedName_points (followers : List Follower) :
    Points source floor ahead Anything (dottedName followers) :=
  ident_points.bind_any fun first => dottedNameFrom_points first followers

theorem typeName_points (followers : List Follower) :
    Points source floor ahead Anything (typeName followers) := by
  refine .look_bind fun found seen => ?_
  split
  · exact .advance_bind seen ((dottedName_points _).bind_any fun _ => .pure_any _)
  · exact (dottedName_points _).bind_any fun _ => .pure_any _
  · exact .unexpected

/-! ## Literals -/

theorem stringLiteral_points :
    Points source floor ahead (fun literal => Passed source floor literal.2) stringLiteral := by
  refine .look_bind fun found seen => ?_
  split
  · exact .advance_bind seen (.pure fun _ before => ⟨seen.1, seen.2, before⟩)
  · exact .unexpected

/-- An integer was passed behind a floor. -/
def PassedInt (source : String) (floor : Nat) (literal : IntLiteral) : Nat → Prop :=
  Passed source floor literal.span

theorem positiveInt_points :
    Points source floor ahead (PassedInt source floor) positiveInt := by
  refine .look_bind fun found seen => ?_
  split
  · exact .advance_bind seen (.pure fun _ before => ⟨seen.1, seen.2, before⟩)
  · exact .unexpected

/-- Behind an integer. -/
theorem Points.bind_int {β : Type} {other : β → Nat → Prop} {number : Parser IntLiteral}
    {next : IntLiteral → Parser β}
    (first : Points source floor ahead (PassedInt source floor) number)
    (second : ∀ literal, Placed source literal.span → floor ≤ literal.span.start →
      Points source literal.span.stop none other (next literal)) :
    Points source floor ahead other (number >>= next) :=
  first.bind_span second

theorem signedInt_points : Points source floor ahead (PassedInt source floor) signedInt := by
  refine .look_bind fun found seen => ?_
  split
  · refine .advance_bind seen (positiveInt_points.bind_int fun literal placed behind => ?_)
    exact .pure fun _ before => ⟨seen.1.through placed behind, seen.2, before⟩
  · exact positiveInt_points

theorem fieldNumber_points : Points source floor ahead (PassedInt source floor) fieldNumber :=
  positiveInt_points.bind_int fun _ placed behind => .check_bind (.of_span rfl placed)
    (.pure fun _ before => ⟨placed, behind, before⟩)

theorem enumNumber_points : Points source floor ahead (PassedInt source floor) enumNumber :=
  signedInt_points.bind_int fun _ placed behind => .check_bind (.of_span rfl placed)
    (.pure fun _ before => ⟨placed, behind, before⟩)

section Ranges

variable {number : Parser IntLiteral}

/-- The second number of a range comes after the first. -/
theorem numberRange_points (bound : ∀ low, Points source low none (PassedInt source low) number) :
    Points source floor none Anything (numberRange number) := by
  refine (bound floor).bind_int fun start starts _ => .look_bind fun found seen => ?_
  split
  · refine .advance_bind seen (.look_bind fun found later => ?_)
    split
    · exact .advance_bind later (.pure_any _)
    · refine (bound _).weaken.bind_int fun stop stops behind => .check_bind (.of_span rfl ?_)
        (.pure_any _)
      exact starts.through stops (seen.le_stop.trans behind)
  · exact .pure_any _

theorem numberRanges_points (bound : ∀ low, Points source low none (PassedInt source low) number) :
    Points source floor none Anything (numberRanges number) := by
  refine (numberRange_points bound).bind_any fun first =>
    (Points.collect (.look_bind fun found seen => ?_)).bind_any fun _ => .pure_any _
  split
  · exact .advance_bind seen ((numberRange_points bound).bind_any fun _ => .pure_any _)
  · exact .pure_any _

end Ranges

/-! ## Constants -/

theorem numberConstant_points (negative : Bool) (start : Nat) :
    Points source floor ahead Anything (numberConstant negative start) := by
  refine .look_bind fun found seen => ?_
  split
  · exact .advance_bind seen (.spanFrom_any fun _ => .pure_any _)
  · exact .advance_bind seen (.spanFrom_any fun _ => .pure_any _)
  · exact .advance_bind seen (.spanFrom_any fun _ => .pure_any _)
  · exact .advance_bind seen (.spanFrom_any fun _ => .pure_any _)
  · exact .unexpected

theorem constant_points (followers : List Follower) :
    Points source floor ahead Anything (constant followers) := by
  refine .look_bind fun found seen => ?_
  split
  · exact (dottedName_points _).bind_any fun _ => .pure_any _
  · exact .advance_bind seen (numberConstant_points _ _)
  · exact .advance_bind seen (numberConstant_points _ _)
  · exact numberConstant_points _ _
  · exact numberConstant_points _ _
  · refine .advance_bind seen ((Points.collect (.look_bind fun found later => ?_)).bind_any
      fun _ => .spanFrom_any fun _ => .pure_any _)
    split
    · exact .advance_bind later (.pure_any _)
    · exact .pure_any _
  · exact .unexpected

/-! ## Options -/

theorem optionNamePart_points : Points source floor ahead Anything optionNamePart := by
  have name {low : Nat} {ahead : Option (Token × Span)} (dot : String) :
      Points source low ahead Anything (do
        let name ← dottedName [.mark .rightParen]
        let _ ← mark .rightParen
        return "(" ++ dot ++ name.text ++ ")") :=
    (dottedName_points _).bind_any fun _ => .mark_bind fun _ => .pure_any _
  refine .look_bind fun found seen => ?_
  split
  · refine .advance_bind seen (.look_bind fun found later => ?_)
    split
    · exact .advance_bind later (name ".")
    · exact name ""
  · exact .advance_bind seen (.pure_any _)
  · exact .unexpected

theorem optionName_points (start : Nat) :
    Points source floor ahead Anything (optionName start) := by
  refine optionNamePart_points.bind_any fun first =>
    (Points.collect (.look_bind fun found seen => ?_)).bind_any fun more =>
      .spanFrom_any fun _ => Points.advance_any.bind_any fun _ => .pure_any _
  split
  · exact .advance_bind seen (optionNamePart_points.bind_any fun _ => .pure_any _)
  · exact .pure_any _
  · exact .unexpected

theorem optionEntry_points (followers : List Follower) :
    Points source floor ahead Anything (optionEntry followers) :=
  .nextStart_bind fun _ => (optionName_points _).bind_any fun _ =>
    (constant_points _).bind_any fun _ => .spanFrom_any fun _ => .pure_any _

theorem optionStatement_points : Points source floor ahead Anything optionStatement :=
  .word_bind fun _ _ _ => (optionEntry_points _).bind_any fun _ => .mark_bind fun _ =>
    .spanFrom_any fun _ => .pure_any _

theorem optionList_points : Points source floor ahead Anything optionList := by
  refine .mark_bind fun _ => (optionEntry_points _).bind_any fun first =>
    (Points.collect (.look_bind fun found seen => ?_)).bind_any fun _ => .pure_any _
  split
  · exact .advance_bind seen ((optionEntry_points _).bind_any fun _ => .pure_any _)
  · exact .advance_bind seen (.pure_any _)
  · exact .unexpected

/-! ## Fields -/

/-- The label of a field stands in the source. -/
def LabelPlaced (source : String) (label : Option (FieldLabel × Span)) : Prop :=
  ∀ found ∈ label, Placed source found.2

theorem fieldLabel_points :
    Points source floor ahead (fun label _ => LabelPlaced source label) fieldLabel := by
  have here {label : FieldLabel} {span : Span} (placed : Placed source span) :
      LabelPlaced source (some (label, span)) := by
    rintro _ ⟨⟩
    exact placed
  refine .look_bind fun found seen => ?_
  split
  · exact .advance_bind seen (.pure fun _ _ => here seen.1)
  · exact .advance_bind seen (.pure fun _ _ => here seen.1)
  · exact .advance_bind seen (.pure fun _ _ => here seen.1)
  · exact .pure fun _ _ => nofun
  · exact .pure fun _ _ => nofun
  · exact .unexpected

theorem points_of_labelError? {version : Version} {host : Option FieldHost} {label : FieldLabel}
    {span : Span} {error : SyntaxError} (placed : Placed source span)
    (found : labelError? version host label span = some error) : error.Points source := by
  rw [labelError?.eq_def] at found
  split at found
  · cases found
    exact .of_span rfl placed
  · cases found
    exact .of_span rfl placed
  · split at found <;> cases found
    exact .of_span rfl placed
  · cases found

theorem judgeLabel_points (version : Version) (host : Option FieldHost)
    {label : Option (FieldLabel × Span)} (placed : LabelPlaced source label) :
    Points source floor ahead Anything (judgeLabel version host label) := by
  rcases label with _ | ⟨label, span⟩
  · exact .pure_any _
  · rw [judgeLabel]
    cases found : labelError? version host label span with
    | none => exact .pure_any _
    | some error =>
        have points := points_of_labelError? (placed _ rfl) found
        exact .report_bind points (.pure_any ())

theorem mapType_points (start : Nat) : Points source floor ahead Anything (mapType start) :=
  .mark_bind fun _ => (typeName_points _).bind_any fun _ => .mark_bind fun _ =>
    (typeName_points _).bind_any fun _ => .mark_bind fun _ => .spanFrom_any fun _ => .pure_any _

theorem fieldType_points (host : Option FieldHost) {label : Option (FieldLabel × Span)}
    (placed : LabelPlaced source label) :
    Points source floor ahead Anything (fieldType host label) := by
  refine .look_bind fun found seen => ?_
  split
  · exact .report_bind (.of_span rfl seen.1) .fail
  · refine .advance_bind seen (.look_bind fun found later => ?_)
    split
    · refine (mapType_points _).bind_any fun type => ?_
      have misplaced (host : FieldHost) : Points source _ none Anything (do
          report (.misplacedMapField host (← spanFrom _))
          return type) :=
        .spanFrom_bind seen.1.start seen.1.filled fun _ placed =>
          .report_bind (.of_span rfl placed) (.pure_any _)
      cases label with
      | none =>
          cases host with
          | none => exact .pure_any _
          | some host => exact misplaced host
      | some label =>
          refine .report_bind (.of_span rfl (placed _ rfl)) ?_
          cases host with
          | none => exact .pure_any _
          | some host => exact misplaced host
    · exact (dottedNameFrom_points _ _).bind_any fun _ => .pure_any _
  · exact (typeName_points _).bind_any fun _ => .pure_any _

theorem fieldOptions_points : Points source floor ahead Anything fieldOptions := by
  refine .look_bind fun found seen => ?_
  split
  · exact optionList_points.bind_any fun _ => .mark_bind fun _ => .pure_any _
  · exact .advance_bind seen (.pure_any _)
  · exact .unexpected

theorem field_points (version : Version) (host : Option FieldHost) :
    Points source floor ahead Anything (field version host) := by
  rw [field_eq]
  exact .comments_bind fun _ => fieldLabel_points.bind_fact fun _ placed => .nextStart_bind fun _ =>
    (judgeLabel_points _ _ placed).bind_any fun _ => (fieldType_points _ placed).bind_any fun _ =>
      ident_points.bind_any fun _ => .mark_bind fun _ => fieldNumber_points.any.bind_any fun _ =>
        fieldOptions_points.bind_any fun _ => .spanFrom_any fun _ => .pure_any _

/-! ## Bodies -/

/-- All entries of a body point into the source. -/
def EntriesPoint (source : String) (entry : Token → Option (Parser Entry)) : Prop :=
  ∀ {token parser floor}, entry token = some parser → Points source floor none Anything parser

theorem body_points {expected : Expected} {entry : Token → Option (Parser Entry)}
    (entries : EntriesPoint source entry) :
    Points source floor ahead Anything (body expected entry) := by
  refine .mark_bind fun _ => .collect (.look_bind fun found seen => ?_)
  split
  · exact .advance_bind seen (.pure_any _)
  · exact .advance_bind seen (.pure_any _)
  · split
    · next found => exact (entries found).weaken.bind_any fun _ => .pure_any _
    · exact .unexpected
  · exact .unexpected

theorem optionBodyEntry_points : Points source floor ahead Anything optionBodyEntry :=
  optionStatement_points.bind_any fun _ => .pure_any _

/-! ## Reserved numbers and names -/

theorem reservedName_points : Points source floor ahead Anything reservedName :=
  stringLiteral_points.bind_span fun _ placed _ => .check_bind (.of_span rfl placed) (.pure_any _)

theorem reservedStatement_points {number : Parser IntLiteral}
    (bound : ∀ low, Points source low none (PassedInt source low) number) :
    Points source floor ahead Anything (reservedStatement number) := by
  have ranges {low : Nat} : Points source low none Anything (do
      let ranges ← numberRanges number
      let _ ← mark .semicolon
      return Reserved.ranges ranges) :=
    (numberRanges_points bound).bind_any fun _ => .mark_bind fun _ => .pure_any _
  refine .word_bind fun _ _ _ => .look_bind fun found seen => ?_
  split
  · exact ranges.weaken
  · exact ranges.weaken
  · refine reservedName_points.bind_any fun first =>
      (Points.collect (.look_bind fun found later => ?_)).bind_any fun _ => .pure_any _
    split
    · exact .advance_bind later (reservedName_points.bind_any fun _ => .pure_any _)
    · exact .advance_bind later (.pure_any _)
    · exact .unexpected
  · exact .unexpected

theorem extensionsStatement_points : Points source floor ahead Anything extensionsStatement := by
  have ended {low : Nat} {ahead : Option (Token × Span)} (start : Span)
      (ranges : List NumberRange) (options : List OptionEntry) :
      Points source low ahead Anything (do
        let _ ← mark .semicolon
        return (⟨ranges, options, ← spanFrom start.start⟩ : ExtensionRanges)) :=
    .mark_bind fun _ => .spanFrom_any fun _ => .pure_any _
  refine .word_bind fun start _ _ => (numberRanges_points fun _ => fieldNumber_points).bind_any
    fun ranges => .look_bind fun found seen => ?_
  split
  · exact optionList_points.bind_any fun options => ended start ranges options
  · exact ended start ranges []

/-! ## Enums -/

theorem enumValue_points : Points source floor ahead Anything enumValue := by
  refine .comments_bind fun comments => ident_points.bind_any fun name => .mark_bind fun _ =>
    enumNumber_points.any.bind_any fun number => .look_bind fun found seen => ?_
  have ended {low : Nat} {ahead : Option (Token × Span)} (options : List OptionEntry) :
      Points source low ahead Anything (do
        let _ ← mark .semicolon
        return ({ name, number, options, comments, span := ← spanFrom name.span.start } :
          EnumValue)) :=
    .mark_bind fun _ => .spanFrom_any fun _ => .pure_any _
  split
  · exact ended []
  · exact optionList_points.bind_any ended
  · exact .unexpected_bind

theorem enumDeclaration_points : Points source floor ahead Anything enumDeclaration := by
  refine .comments_bind fun comments => .word_bind fun start _ _ => ident_points.bind_any
    fun name => (body_points ?_).bind_any fun entries => .spanFrom_any fun _ => .pure_any _
  intro token parser floor found
  dsimp only at found
  split at found <;> cases found
  · exact optionBodyEntry_points
  · exact (reservedStatement_points fun _ => enumNumber_points).bind_any fun _ => .pure_any _
  · exact enumValue_points.bind_any fun _ => .pure_any _

/-! ## Services -/

theorem streamFlag_points : Points source floor ahead Anything streamFlag := by
  refine .look_bind fun found seen => ?_
  split
  · exact .advance_bind seen (.pure_any _)
  · exact .pure_any _
  · exact .pure_any _
  · exact .unexpected

theorem methodType_points : Points source floor ahead Anything methodType :=
  .mark_bind fun _ => streamFlag_points.bind_any fun _ => (typeName_points _).bind_any fun _ =>
    .mark_bind fun _ => .pure_any _

theorem method_points : Points source floor ahead Anything method := by
  refine .comments_bind fun comments => .word_bind fun start _ _ => ident_points.bind_any
    fun name => methodType_points.bind_any fun input => .word_bind fun _ _ _ =>
      methodType_points.bind_any fun output => .look_bind fun found seen => ?_
  split
  · exact .advance_bind seen (.spanFrom_any fun _ => .pure_any _)
  · refine (body_points ?_).bind_any fun entries => .spanFrom_any fun _ => .pure_any _
    intro token parser floor found
    dsimp only at found
    split at found <;> cases found
    exact optionBodyEntry_points
  · exact .unexpected_bind

theorem service_points : Points source floor ahead Anything service := by
  refine .comments_bind fun comments => .word_bind fun start _ _ => ident_points.bind_any
    fun name => (body_points ?_).bind_any fun entries => .spanFrom_any fun _ => .pure_any _
  intro token parser floor found
  dsimp only at found
  split at found <;> cases found
  · exact method_points.bind_any fun _ => .pure_any _
  · exact optionBodyEntry_points

/-! ## Messages and what they hold -/

theorem hostField?_point (version : Version) (host : FieldHost) :
    EntriesPoint source (hostField? version host) := by
  intro token parser floor found
  rw [hostField?.eq_def] at found
  split at found <;> cases found
  · exact (field_points version host).bind_any fun _ => .pure_any _
  · exact (field_points version host).bind_any fun _ => .pure_any _

theorem extend_points (version : Version) : Points source floor ahead Anything (extend version) :=
  .comments_bind fun _ => .word_bind fun _ _ _ => (typeName_points _).bind_any fun _ =>
    (body_points (hostField?_point version .extend)).bind_any fun _ => .spanFrom_any fun _ =>
      .pure_any _

theorem oneof_points (version : Version) : Points source floor ahead Anything (oneof version) := by
  refine .comments_bind fun comments => .word_bind fun start placed _ => ident_points.bind_any
    fun name => (body_points ?_).bind_any fun entries => .spanFrom_bind placed.start placed.filled
      fun span whole => .check_bind (.of_span rfl whole) (.pure_any _)
  intro token parser floor found
  dsimp only at found
  split at found
  · cases found
    exact optionBodyEntry_points
  · exact hostField?_point version .oneof found

theorem message_points (version : Version) (depth : Nat) :
    Points source floor none Anything (message version depth) := by
  induction depth generalizing floor with
  | zero => exact .fail
  | succ depth induction =>
      refine .comments_bind fun comments => .word_bind fun start _ _ => ident_points.bind_any
        fun name => (body_points ?_).bind_any fun entries => .spanFrom_any fun _ => .pure_any _
      intro token parser floor found
      dsimp only at found
      split at found <;> cases found
      · exact induction.bind_any fun _ => .pure_any _
      · exact enumDeclaration_points.bind_any fun _ => .pure_any _
      · exact (extend_points version).bind_any fun _ => .pure_any _
      · exact (oneof_points version).bind_any fun _ => .pure_any _
      · exact optionBodyEntry_points
      · exact (reservedStatement_points fun _ => fieldNumber_points).bind_any fun _ => .pure_any _
      · exact extensionsStatement_points.bind_any fun _ => .pure_any _
      · exact (field_points version none).bind_any fun _ => .pure_any _
      · exact (field_points version none).bind_any fun _ => .pure_any _

/-! ## Statements -/

theorem versionStatement_points : Points source floor ahead Anything versionStatement := by
  have ended {low : Nat} {ahead : Option (Token × Span)} (start : Span) (version : Version) :
      Points source low ahead Anything (do
        let _ ← mark .semicolon
        return (version, ← spanFrom start.start)) :=
    .mark_bind fun _ => .spanFrom_any fun _ => .pure_any _
  refine .word_bind fun start _ _ => .mark_bind fun _ => .look_bind fun found seen => ?_
  split
  · refine .advance_bind seen ?_
    split
    · exact ended start .proto2
    · exact ended start .proto3
    · exact .report_bind (.of_span rfl seen.1) (ended start .proto2)
  · exact .unexpected_bind

theorem packageStatement_points :
    Points source floor ahead (fun package _ => Placed source package.span) packageStatement :=
  .word_bind fun _ placed _ => (dottedName_points _).bind_any fun _ => .mark_bind fun _ =>
    .spanFrom_bind placed.start placed.filled fun _ whole => .pure fun _ _ => whole

theorem importStatement_points : Points source floor ahead Anything importStatement := by
  have ended {low : Nat} {ahead : Option (Token × Span)} (start : Span)
      (modifier : Option ImportModifier) :
      Points source low ahead Anything (do
        let file ← stringLiteral
        check (isImportName file.1) (.invalidImport file.2)
        let _ ← mark .semicolon
        return (⟨modifier, file.1, file.2, ← spanFrom start.start⟩ : Import)) :=
    stringLiteral_points.bind_span fun _ placed _ => .check_bind (.of_span rfl placed)
      (.mark_bind fun _ => .spanFrom_any fun _ => .pure_any _)
  refine .word_bind fun start _ _ => .look_bind fun found seen => ?_
  split
  · exact .advance_bind seen (ended start (some .weak))
  · exact .advance_bind seen (ended start (some .reexport))
  · exact ended start none
  · exact .unexpected_bind

/-- A package statement stands in the source. -/
def PackagePlaced (source : String) : Option Statement → Prop
  | some (.package package) => Placed source package.span
  | _ => True

theorem statement_points (version : Version) :
    Points source floor ahead (fun statement _ => PackagePlaced source statement)
      (statement version) := by
  refine .look_bind fun found seen => ?_
  split
  · exact .advance_bind seen (.pure fun _ _ => trivial)
  · exact importStatement_points.bind_any fun _ => .pure fun _ _ => trivial
  · exact packageStatement_points.bind_fact fun _ placed => .pure fun _ _ => placed
  · exact optionStatement_points.bind_any fun _ => .pure fun _ _ => trivial
  · exact (extend_points version).bind_any fun _ => .pure fun _ _ => trivial
  · exact .remaining_bind fun depth => (message_points version depth).weaken.bind_any fun _ =>
      .pure fun _ _ => trivial
  · exact enumDeclaration_points.bind_any fun _ => .pure fun _ _ => trivial
  · exact service_points.bind_any fun _ => .pure fun _ _ => trivial
  · exact .pure fun _ _ => trivial
  · exact .unexpected

theorem skipToStatement_points : Points source floor ahead Anything skipToStatement := by
  refine (Points.collect (.look_bind fun found seen => ?_)).bind_any fun _ => .pure_any _
  split
  · split
    · exact .pure_any _
    · exact .advance_bind seen (.pure_any _)
  · exact .pure_any _

/-! ## Files -/

/-- The package statement that counts stands in the source. -/
def FilePlaced (source : String) (file : File) : Prop :=
  ∀ package ∈ file.package, Placed source package.span

/-- Of two package statements both are labelled. -/
theorem addStatement_points {file : File} {statement : Statement}
    (first : FilePlaced source file) (second : PackagePlaced source (some statement)) :
    Points source floor ahead (fun file _ => FilePlaced source file)
      (addStatement file statement) := by
  cases statement with
  | package package =>
      rw [addStatement]
      split
      · next earlier same =>
          have placed := first earlier same
          exact .report_bind (SyntaxError.points_duplicatePackage placed second)
            (.pure fun _ _ => first)
      · refine .pure fun _ _ => ?_
        rintro _ ⟨⟩
        exact second
  | _ => exact .pure fun _ _ => first

theorem addStatements_points {file : File} (fuel : Nat) (first : FilePlaced source file) :
    Points source floor none Anything (addStatements file fuel) := by
  induction fuel generalizing file with
  | zero => exact .pure_any _
  | succ fuel induction =>
      rw [addStatements]
      refine (Points.attempt (statement_points file.version)).bind_fact fun result placed => ?_
      rcases result with _ | _ | next
      · exact skipToStatement_points.bind_any fun _ => induction first
      · exact .pure_any _
      · exact (addStatement_points first (placed _ rfl)).bind_fact fun _ => induction

theorem fileVersion_points : Points source floor ahead Anything fileVersion := by
  refine .look_bind fun found seen => ?_
  split
  · refine (Points.attempt versionStatement_points).any.bind_any fun result => ?_
    rcases result with _ | ⟨version, span⟩
    · exact skipToStatement_points.bind_any fun _ => .pure_any _
    · exact .pure_any _
  · exact .pure_any _

theorem file_points : Points source floor none Anything file :=
  fileVersion_points.bind_any fun _ => .remaining_bind fun _ => addStatements_points _ nofun

end Parser

/-! ## Failures -/

/-- All faults of a source point into it. -/
theorem pointed_readSource (source : String) : Pointed source (readSource source).2 :=
  (Parser.file_points (ParserState.start source) (ParserState.sound_start source) le_rfl
    nofun).sound.recorded

/-- A span at places of a source has a position in it. -/
theorem Placed.isSome_position? {source : String} {span : Span} (placed : Placed source span) :
    (Text.position? source.toUTF8.toList span).isSome := by
  have inside := placed.stop.le
  have filled := placed.filled
  rw [Text.position?, Option.isSome_map]
  refine Text.Position.isSome_scan _ _ _ ?_
  rw [Utf8.toUTF8_toList, Utf8.length_encode, Span.length]
  dsimp only
  omega

namespace SyntaxError

/-- Only the end of a source and the source as a whole have no span. -/
theorem span?_eq_none_iff {error : SyntaxError} :
    error.span? = none ↔ error = .fileTooLarge ∨ ∃ expected, error = .unexpectedEnd expected := by
  cases error <;> simp [span?]

/-- The span of a fault is labelled. -/
theorem exists_label_of_span? {error : SyntaxError} {span : Span}
    (lies : error.span? = some span) : ∃ label ∈ error.labels, label.span = span := by
  cases error with
  | unexpectedEnd | fileTooLarge => cases lies
  | duplicatePackage first second =>
      cases lies
      exact ⟨_, List.mem_cons_of_mem _ List.mem_cons_self, rfl⟩
  | _ =>
      cases lies
      exact ⟨_, List.mem_cons_self, rfl⟩

end SyntaxError

/-- What a failure tells about places in a source. -/
structure SyntaxFailure.PointsInto (failure : SyntaxFailure) (source : String) : Prop where
  source_eq : failure.source = source
  /-- Whatever is labelled, of the first fault or a further one, is a part of the source that is
  not empty. -/
  labels : ∀ error ∈ failure.errors, ∀ label ∈ error.labels, Placed source label.span
  /-- Only a source with too many bytes is at fault as a whole. -/
  large : .fileTooLarge ∈ failure.errors ↔ maxFileSize < source.utf8ByteSize
  /-- There is a line, unless the first fault is that the source ends or is too large. -/
  line : failure.line?.isSome ↔
    failure.first ≠ .fileTooLarge ∧ ∀ expected, failure.first ≠ .unexpectedEnd expected

/-- The first fault has a line if it has a span. -/
theorem SyntaxFailure.isSome_line?_iff {failure : SyntaxFailure}
    (labels : ∀ label ∈ failure.first.labels, Placed failure.source label.span) :
    failure.line?.isSome ↔
      failure.first ≠ .fileTooLarge ∧ ∀ expected, failure.first ≠ .unexpectedEnd expected := by
  rw [← not_exists, ← not_or, ← SyntaxError.span?_eq_none_iff]
  cases lies : failure.first.span? with
  | none => simp [SyntaxFailure.line?, lies]
  | some span =>
      rcases SyntaxError.exists_label_of_span? lies with ⟨label, member, rfl⟩
      have placed := labels label member
      rcases Option.isSome_iff_exists.mp placed.isSome_position? with ⟨position, found⟩
      refine iff_of_true ?_ nofun
      simp only [SyntaxFailure.line?, SyntaxFailure.bytes, lies, found, Option.bind_eq_bind,
        Option.bind_some, Option.pure_def, Option.isSome_some]

theorem pointsInto_of_parse {name source : String} {failure : SyntaxFailure}
    (failed : parse name source = .error failure) : failure.PointsInto source := by
  rcases parse_eq_error_iff.mp failed with ⟨-, rfl, errors⟩
  have pointed := pointed_readSource failure.source
  have labels : ∀ error ∈ failure.errors, ∀ label ∈ error.labels,
      Placed failure.source label.span := by
    rw [errors]
    split
    · exact List.forall_mem_singleton.mpr (List.forall_mem_nil _)
    · exact fun error found => (pointed error found).labels
  have large : .fileTooLarge ∈ failure.errors ↔ maxFileSize < failure.source.utf8ByteSize := by
    rw [errors]
    split
    · next large => exact iff_of_true List.mem_cons_self large
    · next fits => exact iff_of_false (fun found => (pointed _ found).inside rfl) fits
  exact ⟨rfl, labels, large, SyntaxFailure.isSome_line?_iff (labels _ List.mem_cons_self)⟩

end Syntax

end ProtoSchema
