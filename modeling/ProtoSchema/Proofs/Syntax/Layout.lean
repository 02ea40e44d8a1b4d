import ProtoSchema.Proofs.Syntax.Composition
import ProtoSchema.Proofs.Syntax.Spans
/-! # The layout of a source

Every span of a tree with the spans inside it, and what the text at each of them is like.
-/

namespace ProtoSchema.Syntax

/-! ## Layouts -/

/-- A span of a tree with those inside it: some part of the source, a word, an entry that begins
with its first part and ends with a semicolon, or a statement with its keyword and the marks that
it may end with. A statement holds several lists. -/
inductive Layout
  | part (span : Span) (inner : List Layout)
  | word (span : Span) (text : String)
  | entry (span : Span) (inner : List Layout)
  | statement (span : Span) (keyword : String) (marks : List Char) (inner : List (List Layout))

def Layout.span : Layout → Span
  | part span _ => span
  | word span _ => span
  | entry span _ => span
  | statement span _ _ _ => span

/-- Some spans lie in a span, one after another. -/
structure Holds (outer : Span) (spans : List Span) : Prop where
  inside : ∀ span ∈ spans, outer.start ≤ span.start ∧ span.stop ≤ outer.stop
  ascending : spans.Pairwise fun earlier later => earlier.stop ≤ later.start

/-- Every span stands at a text that is not empty and is what it should be, and the spans inside
it lie in it, those of one list one after another. -/
inductive Layout.Faithful (source : String) : Layout → Prop
  | part {span : Span} {inner : List Layout} {text : List Char}
      (stands : StandsAt source span text) (filled : text ≠ [])
      (holds : Holds span (inner.map Layout.span))
      (faithful : ∀ layout ∈ inner, layout.Faithful source) : Faithful source (.part span inner)
  | word {span : Span} {text : String} (stands : StandsAt source span text.toList)
      (filled : text ≠ "") : Faithful source (.word span text)
  | entry {span : Span} {first : Layout} {rest : List Layout} {text : List Char}
      (stands : StandsAt source span text) (starts : first.span.start = span.start)
      (stops : text.getLast? = some ';')
      (holds : Holds span ((first :: rest).map Layout.span))
      (faithful : ∀ layout ∈ first :: rest, layout.Faithful source) :
      Faithful source (.entry span (first :: rest))
  | statement {span : Span} {keyword : String} {marks : List Char} {inner : List (List Layout)}
      {rest : List Char} {mark : Char} (stands : StandsAt source span (keyword.toList ++ rest))
      (starts : EndsWord rest) (stops : (keyword.toList ++ rest).getLast? = some mark)
      (allowed : mark ∈ marks)
      (holds : ∀ list ∈ inner, Holds span (list.map Layout.span))
      (faithful : ∀ list ∈ inner, ∀ layout ∈ list, layout.Faithful source) :
      Faithful source (.statement span keyword marks inner)

/-! ## The layout of a tree -/

def Ident.layout (ident : Ident) : Layout :=
  .word ident.span ident.name

def DottedName.layout (name : DottedName) : Layout :=
  .part name.span (name.parts.map Ident.layout)

def TypeName.layout (type : TypeName) : Layout :=
  .part type.span ((type.leadingDot.map fun dot => .part dot []).toList ++ [type.name.layout])

def IntLiteral.layout (literal : IntLiteral) : Layout :=
  .part literal.span []

def Constant.layout : Constant → Layout
  | ident name => name.layout
  | int literal => literal.layout
  | float _ span => .part span []
  | string _ span => .part span []

namespace OptionEntry

def parts (entry : OptionEntry) : List Layout :=
  [.part entry.nameSpan [], entry.value.layout]

/-- An option in brackets. -/
def layout (entry : OptionEntry) : Layout :=
  .part entry.span entry.parts

/-- An option that is a statement. -/
def statement (entry : OptionEntry) : Layout :=
  .statement entry.span "option" [';'] [entry.parts]

end OptionEntry

def RangeEnd.layouts : RangeEnd → List Layout
  | single => []
  | int literal => [literal.layout]
  | max span => [.word span "max"]

/-- A range has no span, but its bounds do. -/
def NumberRange.layouts (range : NumberRange) : List Layout :=
  range.start.layout :: range.stop.layouts

/-- A `reserved` statement has no span, but what it reserves does. A reserved name stands in
quotes. -/
def Reserved.layouts : Reserved → List Layout
  | ranges numbers => numbers.flatMap NumberRange.layouts
  | names quoted => quoted.map fun name => .part name.span []

def ExtensionRanges.layout (extensions : ExtensionRanges) : Layout :=
  .statement extensions.span "extensions" [';']
    [extensions.ranges.flatMap NumberRange.layouts ++ extensions.options.map OptionEntry.layout]

def FieldLabel.word : FieldLabel → String
  | optional => "optional"
  | required => "required"
  | repeated => "repeated"

def FieldType.layout : FieldType → Layout
  | named name => name.layout
  | map key value span => .part span [key.layout, value.layout]

def Field.layout (field : Field) : Layout :=
  .entry field.span
    ((field.label.map fun label => .word label.2 label.1.word).toList ++
      field.type.layout :: field.name.layout :: field.number.layout ::
        field.options.map OptionEntry.layout)

def Oneof.layout (oneof : Oneof) : Layout :=
  .statement oneof.span "oneof" ['}']
    [[oneof.name.layout], oneof.fields.map Field.layout, oneof.options.map OptionEntry.statement]

def Extend.layout (extend : Extend) : Layout :=
  .statement extend.span "extend" ['}']
    [extend.extendee.layout :: extend.fields.map Field.layout]

def EnumValue.layout (value : EnumValue) : Layout :=
  .entry value.span
    (value.name.layout :: value.number.layout :: value.options.map OptionEntry.layout)

def Enum.layout (enum : Enum) : Layout :=
  .statement enum.span "enum" ['}']
    [[enum.name.layout], enum.values.map EnumValue.layout,
      enum.options.map OptionEntry.statement, enum.reserved.flatMap Reserved.layouts]

def Method.layout (method : Method) : Layout :=
  .statement method.span "rpc" [';', '}']
    [method.name.layout :: method.input.layout :: method.output.layout ::
      method.options.map OptionEntry.statement]

def Service.layout (service : Service) : Layout :=
  .statement service.span "service" ['}']
    [[service.name.layout], service.methods.map Method.layout,
      service.options.map OptionEntry.statement]

mutual

def Message.layout : Message → Layout
  | ⟨name, items, options, extensions, reserved, _, span⟩ =>
      .statement span "message" ['}']
        [[name.layout], MessageItem.layouts items, options.map OptionEntry.statement,
          extensions.map ExtensionRanges.layout, reserved.flatMap Reserved.layouts]

def MessageItem.layout : MessageItem → Layout
  | .field declared => declared.layout
  | .oneof declared => declared.layout
  | .message declared => declared.layout
  | .enum declared => declared.layout
  | .extend declared => declared.layout

def MessageItem.layouts : List MessageItem → List Layout
  | [] => []
  | item :: items => item.layout :: MessageItem.layouts items

end

def Import.layout (statement : Import) : Layout :=
  .statement statement.span "import" [';'] [[.part statement.fileSpan []]]

def Package.layout (package : Package) : Layout :=
  .statement package.span "package" [';'] [[package.name.layout]]

def FileItem.layout : FileItem → Layout
  | .message declared => declared.layout
  | .enum declared => declared.layout
  | .service declared => declared.layout
  | .extend declared => declared.layout

/-- The lists that a file holds. -/
def File.layouts (file : File) : List (List Layout) :=
  [(file.versionSpan.map fun span => .statement span "syntax" [';'] []).toList ++
      (file.package.map Package.layout).toList,
    file.imports.map Import.layout, file.options.map OptionEntry.statement,
    file.items.map FileItem.layout]

/-- All spans of a tree are those of a source. -/
structure File.Faithful (source : String) (file : File) : Prop where
  holds : ∀ list ∈ file.layouts,
    Holds ⟨0, Utf8.size source.toList⟩ (list.map Layout.span)
  faithful : ∀ list ∈ file.layouts, ∀ layout ∈ list, layout.Faithful source

/-! ## Sentences that are laid out -/

/-- Some layouts are those of the parts of a sentence, in order, wherever the sentence stands
in a source. -/
def LaidOut (source : String) (sentence : List Lexeme) (layouts : List Layout) : Prop :=
  ∀ start stop, Run source start sentence stop →
    InOrder start (layouts.map Layout.span) stop ∧ ∀ layout ∈ layouts, layout.Faithful source

theorem InOrder.holds {outer : Span} {spans : List Span}
    (ordered : InOrder outer.start spans outer.stop) : Holds outer spans :=
  ⟨ordered.inside, ordered.ascending⟩

namespace LaidOut

variable {source : String} {sentence front back : List Lexeme} {layouts more : List Layout}

theorem none : LaidOut source sentence [] := fun _ _ run => ⟨.none run.le, nofun⟩

theorem append (early : LaidOut source front layouts) (late : LaidOut source back more) :
    LaidOut source (front ++ back) (layouts ++ more) := by
  intro start stop run
  rcases Run.append_iff.mp run with ⟨middle, frontRun, backRun⟩
  rcases early start middle frontRun with ⟨ordered, faithful⟩
  rcases late middle stop backRun with ⟨moreOrdered, moreFaithful⟩
  rw [List.map_append, InOrder.append_iff, List.forall_mem_append]
  exact ⟨⟨middle, ordered, moreOrdered⟩, faithful, moreFaithful⟩

theorem composes : Grammar.Composes (LaidOut source) :=
  ⟨none, append⟩

theorem after (late : LaidOut source back layouts) (front : List Lexeme) :
    LaidOut source (front ++ back) layouts :=
  composes.after late front

theorem before (early : LaidOut source front layouts) (back : List Lexeme) :
    LaidOut source (front ++ back) layouts :=
  composes.before early back

theorem cons (late : LaidOut source back layouts) (lexeme : Lexeme) :
    LaidOut source (lexeme :: back) layouts :=
  composes.cons late lexeme

/-- A sentence has a layout as a whole if it is faithful where the sentence begins and ends. -/
theorem whole (written : sentence ≠ []) {layout : Layout} (span : layout.span = spanOf sentence)
    (faithful : Run source (spanOf sentence).start sentence (spanOf sentence).stop →
      (∃ text, StandsAt source (spanOf sentence) text ∧ text ≠ []) → layout.Faithful source) :
    LaidOut source sentence [layout] := by
  intro start stop run
  rcases run.spanOf written with ⟨tight, starts, stops⟩
  rcases tight.exists_textAt (List.head?_eq_some_head written)
    (List.getLast?_eq_some_getLast written) with ⟨text, after, stands, filled⟩
  refine ⟨?_, List.forall_mem_singleton.mpr (faithful tight ⟨text, ⟨after, stands⟩, filled⟩)⟩
  rw [List.map_singleton, span]
  exact .more starts (stands.lt_of_ne_nil filled) (.none stops)

theorem part (written : sentence ≠ []) (inner : LaidOut source sentence layouts) :
    LaidOut source sentence [.part (spanOf sentence) layouts] := by
  refine whole written rfl fun run ⟨text, stands, filled⟩ => ?_
  rcases inner _ _ run with ⟨ordered, faithful⟩
  exact .part stands filled ordered.holds faithful

theorem leaf (written : sentence ≠ []) : LaidOut source sentence [.part (spanOf sentence) []] :=
  part written none

theorem word {lexeme : Lexeme} {text : String} (token : lexeme.token = .ident text) :
    LaidOut source [lexeme] [.word lexeme.span text] := by
  refine whole (List.cons_ne_nil _ _) rfl fun run _ => ?_
  have member := run.inside lexeme List.mem_cons_self
  rcases textAt_of_ident member token with ⟨after, stands, -⟩
  refine .word ⟨after, stands⟩ ?_
  rcases isIdentifier_of_mem_lexemes member token with ⟨first, rest, split, -⟩
  rintro rfl
  cases split

end LaidOut

/-- A sentence ends with one of some marks. -/
def Ends (marks : List Char) (sentence : List Lexeme) : Prop :=
  ∃ front last symbol, sentence = front ++ [last] ∧ last.token = .mark symbol ∧
    symbol.char ∈ marks

theorem Ends.after {marks : List Char} {back : List Lexeme} (ends : Ends marks back)
    (front : List Lexeme) : Ends marks (front ++ back) := by
  rcases ends with ⟨middle, last, symbol, rfl, token, allowed⟩
  exact ⟨front ++ middle, last, symbol, (List.append_assoc ..).symm, token, allowed⟩

theorem spanOf_append_start {front : List Lexeme} (written : front ≠ []) (back : List Lexeme) :
    (spanOf (front ++ back)).start = (spanOf front).start := by
  rcases List.exists_cons_of_ne_nil written with ⟨first, rest, rfl⟩
  rfl

namespace LaidOut

variable {source : String} {sentence : List Lexeme}

theorem entry {first : Layout} {rest : List Layout} (ends : Ends [';'] sentence)
    (inner : LaidOut source sentence (first :: rest))
    (starts : first.span.start = (spanOf sentence).start) :
    LaidOut source sentence [.entry (spanOf sentence) (first :: rest)] := by
  rcases ends with ⟨front, last, symbol, split, token, allowed⟩
  have written : sentence ≠ [] := by simp [split]
  refine whole written rfl fun run ⟨text, ⟨after, stands⟩, filled⟩ => ?_
  rcases inner _ _ run with ⟨ordered, faithful⟩
  have stops := run.getLast?_of_mark (by simp [split]) token stands
  rw [List.mem_singleton.mp allowed] at stops
  exact .entry ⟨after, stands⟩ starts stops ordered.holds faithful

theorem statement {keyword : String} {marks : List Char} {lists : List (List Layout)}
    (begins : Grammar.Begins [keyword] sentence) (ends : Ends marks sentence)
    (inner : ∀ list ∈ lists, LaidOut source sentence list) :
    LaidOut source sentence [.statement (spanOf sentence) keyword marks lists] := by
  rcases ends with ⟨front, last, symbol, split, token, allowed⟩
  have written : sentence ≠ [] := by simp [split]
  refine whole written rfl fun run ⟨text, ⟨after, stands⟩, filled⟩ => ?_
  rcases run.exists_append_of_begins begins stands with ⟨rest, rfl, word⟩
  have stops := run.getLast?_of_mark (by simp [split]) token stands
  exact .statement ⟨after, stands⟩ word stops allowed
    (fun list member => (inner list member _ _ run).1.holds)
    fun list member => (inner list member _ _ run).2

end LaidOut

namespace Grammar

theorem begins_cons {keyword : Lexeme} {word : String} (token : keyword.token = .ident word)
    (rest : List Lexeme) : Begins [word] (keyword :: rest) :=
  ⟨keyword, rest, rfl, word, List.mem_singleton_self word, token⟩

theorem Body.ends {entry : Production Parser.Entry} {entries : List Parser.Entry}
    {sentence : List Lexeme} (body : Body entry sentence entries) : Ends ['}'] sentence := by
  rcases body with @⟨open_, close, inside, _, -, -, closes⟩
  exact ⟨open_ :: inside, close, .rightBrace, rfl, closes, by decide⟩

/-- A declaration with a body. -/
theorem Body.laidOut {source : String} {keyword : Lexeme} {word : String}
    (token : keyword.token = .ident word) {named inside : List Lexeme}
    {entry : Production Parser.Entry} {entries : List Parser.Entry}
    (body : Body entry inside entries) {lists : List (List Layout)}
    (inner : ∀ list ∈ lists, LaidOut source (keyword :: (named ++ inside)) list) :
    LaidOut source (keyword :: (named ++ inside))
      [.statement (spanOf (keyword :: (named ++ inside))) word ['}'] lists] :=
  .statement (begins_cons token _) (body.ends.after (keyword :: named)) inner

end Grammar

end ProtoSchema.Syntax
