import ProtoSchema.Proofs.Syntax.Alarms
/-! # How a source is read

The lexer covers the source without a gap, and the file parser consumes every lexeme in one of
its turns. Nothing is hidden on the way: the lexical faults are those of the lexer alone, and
each parser that fails leaves a fault behind, so that a source of which something was skipped
is not accepted.
-/

namespace ProtoSchema.Syntax

/-! ## The whole source -/

namespace Lexer

/-- Pieces follow each other without a gap from one offset to another, and none is empty. -/
inductive Covers : Nat → List Piece → Nat → Prop
  | nil (offset : Nat) : Covers offset [] offset
  | cons {piece : Piece} {pieces : List Piece} {stop : Nat}
      (nonempty : piece.span.start < piece.span.stop)
      (rest : Covers piece.span.stop pieces stop) :
      Covers piece.span.start (piece :: pieces) stop

theorem covers_pieces (offset : Nat) (characters : List Char) :
    Covers offset (pieces offset characters) (offset + Utf8.size characters) := by
  fun_induction pieces offset characters with
  | case1 offset => exact .nil offset
  | case2 offset first rest reading stop induction =>
      have whole : stop + Utf8.size (rest.drop reading.extra) =
          offset + Utf8.size (first :: rest) := by
        have parts := congrArg Utf8.size (List.take_append_drop reading.extra rest)
        rw [Utf8.size_append] at parts
        simp only [stop, Utf8.size_cons]
        omega
      rw [whole] at induction
      have longer : offset < stop := by
        have positive := first.utf8Size_pos
        simp only [stop, Utf8.size_cons]
        omega
      exact @Covers.cons ⟨reading.content, reading.errors, ⟨offset, stop⟩⟩ _ _ longer induction

/-- The token of a piece that is one. -/
def Piece.token? (piece : Piece) : Option (Token × Span) :=
  match piece.content with
  | .token token => some (token, piece.span)
  | _ => none

/-- Every piece that is a token becomes one lexeme, in the order of the source. -/
theorem tokens_group (comments : List String) (errors : List SyntaxError) (pieces : List Piece) :
    (group comments errors pieces).lexemes.map (fun lexeme => (lexeme.token, lexeme.span)) =
      pieces.filterMap Piece.token? := by
  induction pieces generalizing comments errors with
  | nil => rfl
  | cons piece pieces induction =>
      rw [group, List.filterMap_cons, Piece.token?]
      dsimp only
      cases piece.content with
      | blank => exact induction _ _
      | comment text => exact induction _ _
      | token token => exact congrArg (List.cons _) (induction _ _)

end Lexer

/-- The state in which a source begins to be read. -/
def ParserState.start (source : String) : ParserState :=
  { upcoming := (lex source).lexemes, trailing := (lex source).trailing }

namespace Parser

/-! ## Failures leave a fault behind -/

/-- A lexeme that begins no token has a fault, which is recorded when it is looked at. -/
theorem errors_ne_nil_of_barred {source : String} {state : ParserState}
    (keeps : Keeps (.start source) state) (barred : state.Barred) : state.errors ≠ [] := by
  intro silent
  rcases barred with ⟨looked, lexeme, rest, upcoming, invalid⟩
  rcases keeps.suffix with ⟨front, split⟩
  have whole : (lex source).lexemes = front ++ lexeme :: rest := by rw [← upcoming, split]; rfl
  have faulty : lexeme.errors ≠ [] :=
    Lexer.errors_ne_nil_of_mem_group (fun piece => Lexer.errors_ne_nil_of_mem_pieces)
      (whole ▸ by simp : lexeme ∈ (lex source).lexemes) invalid
  have unnoticed : state.unnoticed = rest.flatMap Lexeme.errors ++ (lex source).trailing := by
    rw [ParserState.unnoticed, looked, if_pos rfl, ParserState.behind, upcoming, keeps.trailing_eq]
    rfl
  have lexical : state.unnoticed.filter SyntaxError.isLexical = (lex source).errors := by
    have same := keeps.lexical_eq
    rw [ParserState.lexical, ParserState.lexical, silent, ParserState.start, unnoticed_start,
      List.nil_append, List.nil_append, Lexer.errors_lex] at same
    rw [same, Lexer.errors_lex]
    exact List.filter_eq_self.mpr (Lexer.lexical_pieces 0 source.toList)
  have fewer : (lex source).errors.length ≤ state.unnoticed.length := by
    rw [← lexical]
    exact List.length_filter_le _ _
  have positive : 0 < lexeme.errors.length := List.length_pos_iff.mpr faulty
  rw [unnoticed, LexemeSequence.errors, whole, List.flatMap_append, List.flatMap_cons] at fewer
  simp only [List.length_append] at fewer
  omega

/-- A failure that shows leaves a fault behind. -/
theorem Shows.errors_ne_nil {α : Type} {owed : α → Nat} {source : String}
    {before after : ParserState} (shown : Shows owed before (none, after))
    (keeps : Keeps (.start source) after) : after.errors ≠ [] := by
  cases shown with
  | failed alarm =>
      rcases alarm with longer | barred
      · intro silent
        rw [silent] at longer
        exact Nat.not_lt_zero _ longer
      · exact errors_ne_nil_of_barred keeps barred

theorem Keeps.errors_ne_nil {before after : ParserState} (keeps : Keeps before after)
    (faulty : before.errors ≠ []) : after.errors ≠ [] :=
  fun silent => faulty (List.prefix_nil.mp (silent ▸ keeps.recorded))

/-! ## All parsers of the grammar -/

/-- A parser of the grammar that may be called in a state. One for a message has to allow for as
many nested messages as there are lexemes. -/
inductive Callable (state : ParserState) : {α : Type} → Parser α → Prop
  | expect (token : Token) : Callable state (expect token)
  | ident : Callable state ident
  | dottedNameFrom (first : Ident) (followers : List Follower) :
      Callable state (dottedNameFrom first followers)
  | dottedName (followers : List Follower) : Callable state (dottedName followers)
  | typeName (followers : List Follower) : Callable state (typeName followers)
  | stringLiteral : Callable state stringLiteral
  | positiveInt : Callable state positiveInt
  | signedInt : Callable state signedInt
  | fieldNumber : Callable state fieldNumber
  | enumNumber : Callable state enumNumber
  | fieldRange : Callable state (numberRange fieldNumber)
  | enumRange : Callable state (numberRange enumNumber)
  | fieldRanges : Callable state (numberRanges fieldNumber)
  | enumRanges : Callable state (numberRanges enumNumber)
  | numberConstant (negative : Bool) (start : Nat) : Callable state (numberConstant negative start)
  | constant (followers : List Follower) : Callable state (constant followers)
  | optionNamePart : Callable state optionNamePart
  | optionName (start : Nat) : Callable state (optionName start)
  | optionEntry (followers : List Follower) : Callable state (optionEntry followers)
  | optionStatement : Callable state optionStatement
  | optionList : Callable state optionList
  | fieldLabel : Callable state fieldLabel
  | mapType (start : Nat) : Callable state (mapType start)
  | fieldType (host : Option FieldHost) (label : Option (FieldLabel × Span)) :
      Callable state (fieldType host label)
  | fieldOptions : Callable state fieldOptions
  | field (version : Version) (host : Option FieldHost) : Callable state (field version host)
  | reservedName : Callable state reservedName
  | reservedFields : Callable state (reservedStatement fieldNumber)
  | reservedValues : Callable state (reservedStatement enumNumber)
  | extensionsStatement : Callable state extensionsStatement
  | enumValue : Callable state enumValue
  | enumDeclaration : Callable state enumDeclaration
  | streamFlag : Callable state streamFlag
  | methodType : Callable state methodType
  | method : Callable state method
  | service : Callable state service
  | extend (version : Version) : Callable state (extend version)
  | oneof (version : Version) : Callable state (oneof version)
  | message (version : Version) {depth : Nat} (enough : state.upcoming.length ≤ depth + 1) :
      Callable state (message version (depth + 1))
  | versionStatement : Callable state versionStatement
  | packageStatement : Callable state packageStatement
  | importStatement : Callable state importStatement
  | statement (version : Version) : Callable state (statement version)

/-- A parser of the grammar keeps the lexical faults, and shows its failures. -/
theorem Callable.keeps_shows {α : Type} {state : ParserState} {parser : Parser α}
    (callable : Callable state parser) :
    Keeps state (parser state).2 ∧ ∃ owed, Shows owed state (parser state) := by
  have always {β : Type} {owed : β → Nat} {parser : Parser β} (notices : Notices false parser)
      (alarms : Alarms (state.upcoming.length + 1) false owed parser) :
      Keeps state (parser state).2 ∧ ∃ owed, Shows owed state (parser state) :=
    ⟨notices.keeps state, owed, alarms.shows (Nat.lt_succ_self _)⟩
  cases callable with
  | expect token => exact always (.expect token) (.expect token)
  | ident => exact always ident_notices ident_alarms
  | dottedNameFrom first followers =>
      exact always (dottedNameFrom_notices first followers) (dottedNameFrom_alarms first followers)
  | dottedName followers =>
      exact always (dottedName_notices followers) (dottedName_alarms followers)
  | typeName followers => exact always (typeName_notices followers) (typeName_alarms followers)
  | stringLiteral => exact always stringLiteral_notices stringLiteral_alarms
  | positiveInt => exact always positiveInt_notices positiveInt_alarms
  | signedInt => exact always signedInt_notices signedInt_alarms
  | fieldNumber => exact always fieldNumber_notices fieldNumber_alarms
  | enumNumber => exact always enumNumber_notices enumNumber_alarms
  | fieldRange =>
      exact always (numberRange_notices fieldNumber_notices) (numberRange_alarms fieldNumber_alarms)
  | enumRange =>
      exact always (numberRange_notices enumNumber_notices) (numberRange_alarms enumNumber_alarms)
  | fieldRanges =>
      exact always (numberRanges_notices fieldNumber_notices)
        (numberRanges_alarms fieldNumber_alarms)
  | enumRanges =>
      exact always (numberRanges_notices enumNumber_notices)
        (numberRanges_alarms enumNumber_alarms)
  | numberConstant negative start =>
      exact always (numberConstant_notices negative start) (numberConstant_alarms negative start)
  | constant followers => exact always (constant_notices followers) (constant_alarms followers)
  | optionNamePart => exact always optionNamePart_notices optionNamePart_alarms
  | optionName start => exact always (optionName_notices start) (optionName_alarms start)
  | optionEntry followers =>
      exact always (optionEntry_notices followers) (optionEntry_alarms followers)
  | optionStatement => exact always optionStatement_opens.notices optionStatement_alarms
  | optionList => exact always optionList_notices optionList_alarms
  | fieldLabel => exact always fieldLabel_notices fieldLabel_alarms
  | mapType start => exact always (mapType_notices start) (mapType_alarms start)
  | fieldType host label =>
      exact always (fieldType_notices host label) (fieldType_alarms host label)
  | fieldOptions => exact always fieldOptions_notices fieldOptions_alarms
  | field version host => exact always (field_notices version host) (field_alarms version host)
  | reservedName => exact always reservedName_notices reservedName_alarms
  | reservedFields =>
      exact always (reservedStatement_notices fieldNumber_notices)
        (reservedStatement_alarms fieldNumber_alarms)
  | reservedValues =>
      exact always (reservedStatement_notices enumNumber_notices)
        (reservedStatement_alarms enumNumber_alarms)
  | extensionsStatement => exact always extensionsStatement_notices extensionsStatement_alarms
  | enumValue => exact always enumValue_notices enumValue_alarms
  | enumDeclaration => exact always enumDeclaration_opens.notices enumDeclaration_alarms
  | streamFlag => exact always streamFlag_notices streamFlag_alarms
  | methodType => exact always methodType_notices methodType_alarms
  | method => exact always method_notices method_alarms
  | service => exact always service_opens.notices service_alarms
  | extend version => exact always (extend_opens version).notices (extend_alarms version)
  | oneof version => exact always (oneof_notices version) (oneof_alarms version)
  | versionStatement => exact always versionStatement_opens.notices versionStatement_alarms
  | packageStatement => exact always packageStatement_opens.notices packageStatement_alarms
  | importStatement => exact always importStatement_opens.notices importStatement_alarms
  | statement version => exact always (statement_notices version) (statement_alarms version)
  | @message version depth enough =>
      exact always (message_notices version (depth + 1))
        ((message_alarms_of_inside version (message_alarms_below version depth)).restrict
          (by omega))

/-- Wherever a parser of the grammar fails, a fault is on record. -/
theorem Callable.errors_ne_nil {α : Type} {source : String} {state : ParserState}
    {parser : Parser α} (callable : Callable state parser) (reached : Keeps (.start source) state)
    (fails : (parser state).1 = none) : (parser state).2.errors ≠ [] := by
  rcases callable.keeps_shows with ⟨keeps, owed, shown⟩
  rcases run : parser state with ⟨outcome, after⟩
  rw [run] at fails shown keeps
  dsimp only at fails
  subst fails
  exact shown.errors_ne_nil (reached.trans keeps)

/-! ## Failed turns -/

/-- The fault of a turn that failed is still there at the end. -/
theorem Course.errors_ne_nil {source : String} {file result : File} {state last : ParserState}
    {turns : List FileTurn} (course : Course file state turns result last)
    (reached : Keeps (.start source) state) {turn : FileTurn} (member : turn ∈ turns)
    (failed : turn.failed = true) : last.errors ≠ [] := by
  induction course with
  | ended => cases member
  | added read adds consumes rest induction =>
      rcases List.mem_cons.mp member with rfl | member
      · cases failed
      · have keeps := (statement_notices _).keeps_of_run read
        have kept := (addStatement_notices _ _).keeps_of_run adds
        exact induction (reached.trans (keeps.trans kept)) member
  | skipped fails skips consumes rest induction =>
      have faulty := (Callable.statement _).errors_ne_nil reached (congrArg Prod.fst fails)
      rw [fails] at faulty
      have kept := skipToStatement_notices.keeps_of_run skips
      exact (kept.trans rest.keeps).errors_ne_nil faulty

theorem FileCourse.errors_ne_nil {source : String} {result : File} {last : ParserState}
    {turns : List FileTurn} (course : FileCourse (.start source) turns result last)
    {turn : FileTurn} (member : turn ∈ turns) (failed : turn.failed = true) :
    last.errors ≠ [] := by
  have looks := (keeps_look (.start source)).1
  cases course with
  | unversioned other rest => exact rest.errors_ne_nil looks member failed
  | versioned read consumes rest =>
      have keeps := versionStatement_opens.notices.keeps_of_run read
      rcases List.mem_cons.mp member with rfl | member
      · cases failed
      · exact rest.errors_ne_nil (looks.trans keeps) member failed
  | skipped fails skips consumes rest =>
      have faulty := Callable.versionStatement.errors_ne_nil looks (congrArg Prod.fst fails)
      rw [fails] at faulty
      have kept := skipToStatement_notices.keeps_of_run skips
      exact (kept.trans rest.keeps).errors_ne_nil faulty

/-! ## All lexemes are consumed -/

theorem Course.consumed {file result : File} {state last : ParserState} {turns : List FileTurn}
    (course : Course file state turns result last) :
    turns.flatMap FileTurn.consumed = state.upcoming ∧ ∀ turn ∈ turns, turn.consumed ≠ [] := by
  induction course with
  | ended done looked exhausted all => simp [exhausted]
  | added read adds consumes rest induction =>
      rw [List.flatMap_cons, induction.1, consumes.split]
      exact ⟨rfl, List.forall_mem_cons.mpr ⟨consumes.nonempty, induction.2⟩⟩
  | skipped fails skips consumes rest induction =>
      rw [List.flatMap_cons, induction.1, consumes.split]
      exact ⟨rfl, List.forall_mem_cons.mpr ⟨consumes.nonempty, induction.2⟩⟩

theorem FileCourse.consumed {start last : ParserState} {turns : List FileTurn} {result : File}
    (course : FileCourse start turns result last) :
    turns.flatMap FileTurn.consumed = start.upcoming ∧ ∀ turn ∈ turns, turn.consumed ≠ [] := by
  cases course with
  | unversioned other rest => exact (keeps_look start).2.2 ▸ rest.consumed
  | versioned read consumes rest =>
      rw [List.flatMap_cons, rest.consumed.1, consumes.split]
      exact ⟨rfl, List.forall_mem_cons.mpr ⟨consumes.nonempty, rest.consumed.2⟩⟩
  | skipped fails skips consumes rest =>
      rw [List.flatMap_cons, rest.consumed.1, consumes.split]
      exact ⟨rfl, List.forall_mem_cons.mpr ⟨consumes.nonempty, rest.consumed.2⟩⟩

end Parser

/-! ## How a source is read -/

/-- What comes of a source: it is cut into pieces and consumed in turns, no lexical fault is
lost or invented, and nothing fails without a fault. -/
structure ReadsThrough (source : String) (turns : List Parser.FileTurn) (file : File)
    (last : ParserState) : Prop where
  /-- The lexer covers the whole source. -/
  covers : Lexer.Covers 0 (Lexer.pieces 0 source.toList) (Utf8.size source.toList)
  /-- Each token of it is one lexeme. -/
  tokens : (lex source).lexemes.map (fun lexeme => (lexeme.token, lexeme.span)) =
    (Lexer.pieces 0 source.toList).filterMap Lexer.Piece.token?
  /-- The file parser takes turn after turn, up to the end of the source. -/
  course : Parser.FileCourse (.start source) turns file last
  /-- Every lexeme is consumed in one of the turns, and each turn consumes some. -/
  consumed : turns.flatMap Parser.FileTurn.consumed = (lex source).lexemes
  progress : ∀ turn ∈ turns, turn.consumed ≠ []
  result : readSource source = (file, last.errors)
  /-- The lexical faults among the recorded ones are those of the lexer, in their order. -/
  lexical : last.errors.filter SyntaxError.isLexical = (lex source).errors
  /-- Wherever a parser of the grammar fails on the way, a fault is on record. -/
  alarm : ∀ {α : Type} {parser : Parser α} {state : ParserState},
    Parser.Keeps (.start source) state → Parser.Callable state parser →
      (parser state).1 = none → (parser state).2.errors ≠ []
  /-- A source with a failed turn is not accepted. -/
  verdict : ∀ turn ∈ turns, turn.failed = true →
    ∀ name, ∃ failure, parse name source = .error failure

theorem exists_parse_eq_error {source : String} (faulty : (readSource source).2 ≠ [])
    (name : String) : ∃ failure, parse name source = .error failure := by
  rcases List.exists_mem_of_ne_nil _ faulty with ⟨fault, found⟩
  exact (exists_failure_of_fault found name).imp fun _ => And.left

theorem exists_readsThrough (source : String) :
    ∃ turns file last, ReadsThrough source turns file last := by
  rcases Parser.file_course (.start source) with ⟨turns, file, last, run, course⟩
  have result : readSource source = (file, last.errors) := readSource_of_run run
  have whole := Lexer.covers_pieces 0 source.toList
  rw [Nat.zero_add] at whole
  exact ⟨turns, file, last, {
    covers := whole
    tokens := Lexer.tokens_group _ _ _
    course
    consumed := course.consumed.1
    progress := course.consumed.2
    result
    lexical := by rw [← filter_isLexical_readSource, result]
    alarm := fun reached callable fails => callable.errors_ne_nil reached fails
    verdict := fun turn member failed => exists_parse_eq_error (by
      rw [result]
      exact course.errors_ne_nil member failed) }⟩

end ProtoSchema.Syntax
