import ProtoSchema.Proofs.Syntax.Layout
/-! # Faithful spans

In an accepted source the spans of the tree are those of its sentences.
-/

namespace ProtoSchema.Syntax

namespace Grammar

variable {source : String} {sentence : List Lexeme}

/-! ## Names and values -/

theorem Name.laidOut {ident : Ident} (called : Name sentence ident) :
    LaidOut source sentence [ident.layout] := by
  rcases called with ⟨token⟩
  exact .word token

/-- The last name after some dots ends where the names do. -/
theorem stopAfter_names {rest : List Ident} (more : Many (After (.mark .dot) Name) sentence rest)
    (first : Ident) :
    stopAfter first.span.stop sentence = (rest.getLastD first).span.stop := by
  induction more generalizing first with
  | none => rfl
  | @more front back next others dotted rest induction =>
      rcases dotted with ⟨-, ⟨-⟩⟩
      rw [stopAfter_append, List.getLastD_cons, ← induction]
      rfl

theorem DottedName.span_eq {name : Syntax.DottedName} (dotted : DottedName sentence name) :
    name.span = spanOf sentence := by
  rcases dotted with ⟨⟨token⟩, more⟩
  rw [Syntax.DottedName.span, Syntax.DottedName.last, Span.through, ← stopAfter_names more]
  rfl

theorem DottedName.laidOut {name : Syntax.DottedName} (dotted : DottedName sentence name) :
    LaidOut source sentence [name.layout] := by
  rw [Syntax.DottedName.layout, dotted.span_eq]
  refine .part dotted.starts.ne_nil ?_
  rcases dotted with ⟨called, more⟩
  rw [Syntax.DottedName.parts, List.map_cons, List.map_eq_flatMap]
  refine called.laidOut.append (LaidOut.composes.many more ?_)
  rintro _ ident - @⟨dot, part, _, -, called⟩
  exact called.laidOut.cons dot

theorem TypeName.span_eq {type : Syntax.TypeName} (written : TypeName sentence type) :
    type.span = spanOf sentence := by
  cases written with
  | relative inner => exact inner.span_eq
  | @absolute dot sentence name first inner =>
      rcases List.exists_cons_of_ne_nil inner.starts.ne_nil with ⟨second, rest, rfl⟩
      rw [Syntax.TypeName.span, inner.span_eq]
      rfl

theorem TypeName.laidOut {type : Syntax.TypeName} (written : TypeName sentence type) :
    LaidOut source sentence [type.layout] := by
  rw [Syntax.TypeName.layout, written.span_eq]
  refine .part written.starts.ne_nil ?_
  cases written with
  | relative inner => exact inner.laidOut
  | absolute first inner => exact LaidOut.append (.leaf (List.cons_ne_nil _ [])) inner.laidOut

theorem StringText.laidOut {text : String} {span : Span}
    (string : StringText sentence (text, span)) :
    LaidOut source sentence [.part span []] := by
  rcases string with ⟨token⟩
  exact .leaf (List.cons_ne_nil _ _)

theorem PositiveInt.laidOut {literal : IntLiteral} (number : PositiveInt sentence literal) :
    LaidOut source sentence [literal.layout] := by
  rcases number with ⟨token⟩
  exact .leaf (List.cons_ne_nil _ _)

theorem SignedInt.laidOut {literal : IntLiteral} (number : SignedInt sentence literal) :
    LaidOut source sentence [literal.layout] := by
  cases number with
  | plain inner => exact inner.laidOut
  | negative minus token => exact .leaf (List.cons_ne_nil _ _)

theorem Constant.laidOut {value : Syntax.Constant} (constant : Constant sentence value) :
    LaidOut source sentence [value.layout] := by
  have signed {negative : Bool} {sign lexeme : Lexeme} {value : Syntax.Constant}
      (number : Magnitude negative (spanOf [sign, lexeme]) lexeme.token value) :
      LaidOut source [sign, lexeme] [value.layout] := by
    generalize lexeme.token = token at number
    cases number <;> exact .leaf (List.cons_ne_nil _ _)
  cases constant with
  | ident inner => exact inner.laidOut
  | int token => exact .leaf (List.cons_ne_nil _ _)
  | float token => exact .leaf (List.cons_ne_nil _ _)
  | plus _ number => exact signed number
  | minus _ number => exact signed number
  | string token parts => exact .leaf (List.cons_ne_nil _ _)

/-! ## Options -/

theorem OptionEntry.laidOut_parts {entry : Syntax.OptionEntry}
    (option : OptionEntry sentence entry) : LaidOut source sentence entry.parts := by
  rcases option with @⟨front, back, equals, parts, value, name, sign, constant⟩
  have named : LaidOut source front [.part (spanOf front) []] :=
    .leaf (OptionNamePart.written.separated name)
  exact named.append (constant.laidOut.cons equals)

theorem OptionEntry.laidOut {entry : Syntax.OptionEntry} (option : OptionEntry sentence entry) :
    LaidOut source sentence [entry.layout] := by
  have parts : LaidOut source sentence entry.parts := option.laidOut_parts
  rcases option with @⟨front, back, equals, _, _, _, _, _⟩
  exact .part (by simp) parts

theorem OptionStatement.laidOut {entry : Syntax.OptionEntry}
    (statement : OptionStatement sentence entry) :
    LaidOut source sentence [entry.statement] := by
  rcases statement with @⟨keyword, close, inner, entry, word, option, closes⟩
  refine .statement (begins_cons word _)
    ⟨keyword :: inner, close, .semicolon, rfl, closes, by decide⟩ ?_
  rw [List.forall_mem_singleton]
  exact (option.laidOut_parts.before [close]).cons keyword

theorem Options.laidOut {entries : List Syntax.OptionEntry} (options : Options sentence entries) :
    LaidOut source sentence (entries.map OptionEntry.layout) := by
  cases options with
  | none => exact .none
  | list list =>
      rcases list with @⟨open_, close, inner, entries, -, separated, -⟩
      rw [List.map_eq_flatMap]
      refine .cons (.before ?_ [close]) open_
      exact LaidOut.composes.separated separated fun _ _ => OptionEntry.laidOut

/-! ## Ranges -/

theorem NumberRange.laidOut {number : Production IntLiteral} {range : Syntax.NumberRange}
    (written : NumberRange number sentence range)
    (bound : ∀ part literal, number part literal → LaidOut source part [literal.layout]) :
    LaidOut source sentence range.layouts := by
  cases written with
  | single start => exact bound _ _ start
  | @bounded front back between start stop lower word upper =>
      exact (bound _ _ lower).append ((bound _ _ upper).cons between)
  | @unbounded front between max start lower word keyword =>
      exact (bound _ _ lower).append (LaidOut.cons (.word keyword) between)

theorem ReservedStatement.laidOut {number : Production IntLiteral} {reserved : Reserved}
    (statement : ReservedStatement number sentence reserved)
    (bound : ∀ part literal, number part literal → LaidOut source part [literal.layout]) :
    LaidOut source sentence reserved.layouts := by
  cases statement with
  | @ranges keyword close inner ranges word separated closes =>
      refine .cons (.before ?_ [close]) keyword
      exact LaidOut.composes.separated separated fun _ _ written => written.laidOut bound
  | @names keyword close inner names word separated closes =>
      rw [Reserved.layouts, List.map_eq_flatMap]
      refine .cons (.before (LaidOut.composes.separated separated ?_) [close]) keyword
      rintro part name ⟨string⟩
      exact string.laidOut

theorem ExtensionsStatement.laidOut {extensions : ExtensionRanges}
    (statement : ExtensionsStatement sentence extensions) :
    LaidOut source sentence [extensions.layout] := by
  rcases statement with
    @⟨keyword, close, front, back, ranges, options, word, separated, list, closes⟩
  refine .statement (begins_cons word _)
    ⟨keyword :: (front ++ back), close, .semicolon, by simp, closes, by decide⟩ ?_
  rw [List.forall_mem_singleton]
  have numbers : LaidOut source front (ranges.flatMap NumberRange.layouts) :=
    LaidOut.composes.separated separated fun _ _ written =>
      written.laidOut fun _ _ => PositiveInt.laidOut
  exact (numbers.append (list.laidOut.before [close])).cons keyword

/-! ## Fields -/

theorem Label.laidOut {label : Option (FieldLabel × Span)} (written : Label sentence label) :
    LaidOut source sentence
      (label.map fun label => Layout.word label.2 label.1.word).toList := by
  cases written with
  | none => exact .none
  | optional word => exact .word word
  | required word => exact .word word
  | repeated word => exact .word word

theorem FieldType.laidOut {type : Syntax.FieldType} (written : FieldType sentence type) :
    LaidOut source sentence [type.layout] := by
  cases written with
  | named inner _ => exact inner.laidOut
  | @map keyword open_ comma close front back key value word opens left separates right closes =>
      refine .part (List.cons_ne_nil _ _) ?_
      have types : LaidOut source _ [key.layout, value.layout] :=
        left.laidOut.append ((right.laidOut.before [close]).cons comma)
      exact (types.cons open_).cons keyword

theorem FieldType.span_eq {type : Syntax.FieldType} (written : FieldType sentence type) :
    type.layout.span = spanOf sentence := by
  cases written with
  | named inner _ => exact inner.span_eq
  | map => rfl

theorem Field.laidOut {field : Syntax.Field} (written : Field sentence field) :
    LaidOut source sentence [field.layout] := by
  rcases written with @⟨labelled, typed, named, numbered, listed, equals, close, label, type, name,
    number, options, first, kind, -, called, sign, value, list, closes, _, rfl⟩
  have parts : LaidOut source _ _ := first.laidOut.append (kind.laidOut.append
    (called.laidOut.append ((value.laidOut.append (list.laidOut.before [close])).cons equals)))
  have ends : Ends [';']
      (labelled ++ (typed ++ (named ++ equals :: (numbered ++ (listed ++ [close]))))) :=
    ⟨labelled ++ (typed ++ (named ++ equals :: (numbered ++ listed))), close, .semicolon, by simp,
      closes, by decide⟩
  cases first with
  | none =>
      refine .entry ends parts ?_
      rw [kind.span_eq]
      exact (spanOf_append_start kind.starts.ne_nil _).symm
  | optional word | required word | repeated word => exact .entry ends parts rfl

theorem EnumValue.laidOut {value : Syntax.EnumValue} (written : EnumValue sentence value) :
    LaidOut source sentence [value.layout] := by
  rcases written with @⟨named, numbered, listed, equals, close, name, number, options, called, sign,
    number, list, closes, _, rfl⟩
  have parts : LaidOut source _ _ :=
    called.laidOut.append ((number.laidOut.append (list.laidOut.before [close])).cons equals)
  refine .entry ⟨named ++ equals :: (numbered ++ listed), close, .semicolon, by simp, closes,
    by decide⟩ parts ?_
  rcases called with ⟨token⟩
  rfl

/-! ## Declarations -/

variable (source) in
/-- The options of a body are statements. -/
theorem Body.laidOut_options {entry : Production Parser.Entry} {entries : List Parser.Entry}
    (body : Body entry sentence entries)
    (each : ∀ part option, entry part (.option option) → OptionStatement part option) :
    LaidOut source sentence
      ((entries.filterMap Parser.Entry.option?).map Syntax.OptionEntry.statement) := by
  refine LaidOut.composes.body_map body rfl fun part found option _ written isOption => ?_
  cases found <;> cases isOption
  exact (each part option written).laidOut

variable (source) in
/-- The fields of a body. -/
theorem Body.laidOut_fields {entry : Production Parser.Entry} {entries : List Parser.Entry}
    (body : Body entry sentence entries)
    (each : ∀ part field, entry part (.field field) → Field part field) :
    LaidOut source sentence
      ((entries.filterMap Parser.Entry.field?).map Syntax.Field.layout) := by
  refine LaidOut.composes.body_map body rfl fun part found field _ written isField => ?_
  cases found <;> cases isField
  exact (each part field written).laidOut

theorem Oneof.laidOut {oneof : Syntax.Oneof} (written : Oneof sentence oneof) :
    LaidOut source sentence [oneof.layout] := by
  rcases written with @⟨keyword, named, inside, name, entries, word, called, body, _, rfl⟩
  have fields := body.laidOut_fields source fun | _, _, .field inner _ => inner
  have options := body.laidOut_options source fun | _, _, .option inner => inner
  refine body.laidOut word ?_
  simp only [List.forall_mem_cons]
  exact ⟨(called.laidOut.before inside).cons keyword, fields.after (keyword :: named),
    options.after (keyword :: named), nofun⟩

theorem Extend.laidOut {extend : Syntax.Extend} (written : Extend sentence extend) :
    LaidOut source sentence [extend.layout] := by
  rcases written with @⟨keyword, typed, inside, extendee, entries, word, extended, body, _, rfl⟩
  have fields := body.laidOut_fields source fun | _, _, .field inner => inner
  refine body.laidOut word ?_
  rw [List.forall_mem_singleton]
  exact (extended.laidOut.append fields).cons keyword

theorem Enum.laidOut {enum : Syntax.Enum} (written : Enum sentence enum) :
    LaidOut source sentence [enum.layout] := by
  rcases written with @⟨keyword, named, inside, name, entries, word, called, body, _, rfl⟩
  have values : LaidOut source inside
      ((entries.filterMap Parser.Entry.value?).map Syntax.EnumValue.layout) := by
    refine LaidOut.composes.body_map body rfl fun part found value _ written isValue => ?_
    cases written with
    | option | reserved => cases isValue
    | value inner _ =>
        cases isValue
        exact inner.laidOut
  have options := body.laidOut_options source fun | _, _, .option inner => inner
  have reserved : LaidOut source inside
      ((entries.filterMap Parser.Entry.reserved?).flatMap Reserved.layouts) := by
    refine LaidOut.composes.body body rfl fun part found reserved _ written isReserved => ?_
    cases written with
    | option | value => cases isReserved
    | reserved inner =>
        cases isReserved
        exact inner.laidOut fun _ _ => SignedInt.laidOut
  refine body.laidOut word ?_
  simp only [List.forall_mem_cons]
  exact ⟨(called.laidOut.before inside).cons keyword, values.after (keyword :: named),
    options.after (keyword :: named), reserved.after (keyword :: named), nofun⟩

/-! ## Services -/

theorem MethodType.laidOut {type : Syntax.TypeName} {streamed : Bool}
    (written : MethodType sentence (type, streamed)) : LaidOut source sentence [type.layout] := by
  cases written with
  | @single open_ close _ _ _ inner _ _ => exact (inner.laidOut.before [close]).cons open_
  | @streamed open_ keyword close _ _ _ _ inner _ =>
      exact ((inner.laidOut.before [close]).cons keyword).cons open_

theorem MethodEnd.laidOut {options : List Syntax.OptionEntry}
    (written : MethodEnd sentence options) :
    LaidOut source sentence (options.map Syntax.OptionEntry.statement) := by
  cases written with
  | plain => exact .none
  | body inner => exact inner.laidOut_options source fun | _, _, .option written => written

theorem MethodEnd.ends {options : List Syntax.OptionEntry} (written : MethodEnd sentence options) :
    Ends [';', '}'] sentence := by
  cases written with
  | @plain lexeme token => exact ⟨[], lexeme, .semicolon, rfl, token, by decide⟩
  | body inner =>
      rcases inner.ends with ⟨front, last, symbol, split, token, allowed⟩
      exact ⟨front, last, symbol, split, token, List.mem_cons_of_mem _ allowed⟩

theorem Method.laidOut {method : Syntax.Method} (written : Method sentence method) :
    LaidOut source sentence [method.layout] := by
  rcases written with @⟨keyword, returns, named, taken, given, ended, name, input, output, _, _,
    options, word, called, takes, between, gives, ends, _, rfl⟩
  have split : keyword :: (named ++ (taken ++ returns :: (given ++ ended))) =
      (keyword :: (named ++ (taken ++ returns :: given))) ++ ended := by simp
  have stops := ends.ends.after (keyword :: (named ++ (taken ++ returns :: given)))
  rw [← split] at stops
  refine .statement (begins_cons word _) stops ?_
  rw [List.forall_mem_singleton]
  exact (called.laidOut.append (takes.laidOut.append
    ((gives.laidOut.append ends.laidOut).cons returns))).cons keyword

theorem Service.laidOut {service : Syntax.Service} (written : Service sentence service) :
    LaidOut source sentence [service.layout] := by
  rcases written with @⟨keyword, named, inside, name, entries, word, called, body, _, rfl⟩
  have methods : LaidOut source inside
      ((entries.filterMap Parser.Entry.method?).map Syntax.Method.layout) := by
    refine LaidOut.composes.body_map body rfl fun part found method _ written isMethod => ?_
    cases written <;> cases isMethod
    next inner => exact inner.laidOut
  have options := body.laidOut_options source fun | _, _, .option inner => inner
  refine body.laidOut word ?_
  simp only [List.forall_mem_cons]
  exact ⟨(called.laidOut.before inside).cons keyword, methods.after (keyword :: named),
    options.after (keyword :: named), nofun⟩

/-! ## Messages -/

theorem layouts_eq_map (items : List MessageItem) :
    MessageItem.layouts items = items.map MessageItem.layout := by
  induction items with
  | nil => rfl
  | cons item items induction => rw [MessageItem.layouts, induction, List.map_cons]

theorem Message.laidOut {message : Syntax.Message} (written : Message sentence message) :
    LaidOut source sentence [message.layout] := by
  apply Message.induction_on_length ?_ written
  intro sentence message written induction
  rcases written with @⟨keyword, named, inside, name, entries, word, called, body, _, rfl⟩
  simp only [List.length_cons, List.length_append] at induction
  have items : LaidOut source inside
      ((entries.filterMap Parser.Entry.item?).map MessageItem.layout) := by
    refine LaidOut.composes.body_map body rfl fun part found item less written isItem => ?_
    cases written <;> cases isItem
    case message inner => exact induction part _ (by omega) inner
    case enum inner => exact inner.laidOut
    case extend inner => exact inner.laidOut
    case oneof inner => exact inner.laidOut
    case field inner _ => exact inner.laidOut
  have options := body.laidOut_options source fun | _, _, .option inner => inner
  have extensions : LaidOut source inside
      ((entries.filterMap Parser.Entry.extensions?).map ExtensionRanges.layout) := by
    refine LaidOut.composes.body_map body rfl fun part found statement _ written isGiven => ?_
    cases written <;> cases isGiven
    next inner => exact inner.laidOut
  have reserved : LaidOut source inside
      ((entries.filterMap Parser.Entry.reserved?).flatMap Reserved.layouts) := by
    refine LaidOut.composes.body body rfl fun part found reserved _ written isReserved => ?_
    cases written <;> cases isReserved
    next inner => exact inner.laidOut fun _ _ => PositiveInt.laidOut
  rw [Syntax.Message.layout, layouts_eq_map]
  refine body.laidOut word ?_
  simp only [List.forall_mem_cons]
  exact ⟨(called.laidOut.before inside).cons keyword, items.after (keyword :: named),
    options.after (keyword :: named), extensions.after (keyword :: named),
    reserved.after (keyword :: named), nofun⟩

/-! ## Files -/

theorem VersionStatement.laidOut {name : String} {span : Span}
    (statement : VersionStatement sentence (name, span)) :
    LaidOut source sentence [.statement span "syntax" [';'] []] := by
  rcases statement with @⟨keyword, equals, version, close, _, word, sign, text, closes⟩
  exact .statement (begins_cons word _)
    ⟨[keyword, equals, version], close, .semicolon, rfl, closes, by decide⟩ nofun

theorem PackageStatement.laidOut {package : Package}
    (statement : PackageStatement sentence package) :
    LaidOut source sentence [package.layout] := by
  rcases statement with @⟨keyword, close, inner, name, word, dotted, closes⟩
  refine .statement (begins_cons word _)
    ⟨keyword :: inner, close, .semicolon, rfl, closes, by decide⟩ ?_
  rw [List.forall_mem_singleton]
  exact (dotted.laidOut.before [close]).cons keyword

theorem ImportStatement.laidOut {statement : Import}
    (written : ImportStatement sentence statement) :
    LaidOut source sentence [statement.layout] := by
  rcases written with @⟨keyword, close, front, back, _, _, _, word, how, text, closes⟩
  refine .statement (begins_cons word _)
    ⟨keyword :: (front ++ back), close, .semicolon, by simp, closes, by decide⟩ ?_
  rw [List.forall_mem_singleton]
  exact ((text.laidOut.before [close]).after front).cons keyword

theorem Statement.laidOut_item {item : FileItem} (statement : Statement sentence (.item item)) :
    LaidOut source sentence [item.layout] := by
  cases statement with
  | message inner => exact inner.laidOut
  | enum inner => exact inner.laidOut
  | service inner => exact inner.laidOut
  | extend inner => exact inner.laidOut

variable (source) in
/-- The statements of a file of each kind. -/
theorem Many.laidOut_statements {statements : List Parser.Statement}
    (many : Many Statement sentence statements) :
    LaidOut source sentence
        ((statements.filterMap Parser.Statement.package?).map Package.layout) ∧
      LaidOut source sentence ((statements.filterMap Parser.Statement.import?).map Import.layout) ∧
      LaidOut source sentence
        ((statements.filterMap Parser.Statement.option?).map Syntax.OptionEntry.statement) ∧
      LaidOut source sentence
        ((statements.filterMap Parser.Statement.item?).map FileItem.layout) := by
  simp only [List.map_eq_flatMap]
  refine ⟨LaidOut.composes.given many ?_, LaidOut.composes.given many ?_,
    LaidOut.composes.given many ?_, LaidOut.composes.given many ?_⟩
  · rintro part statement package - written isPackage
    cases written <;> cases isPackage
    next inner => exact inner.laidOut
  · rintro part statement import_ - written isImport
    cases written <;> cases isImport
    next inner => exact inner.laidOut
  · rintro part statement option - written isOption
    cases written <;> cases isOption
    next inner => exact inner.laidOut
  · rintro part statement item - written isItem
    cases statement <;> cases isItem
    exact written.laidOut_item

theorem Source.laidOut {outline : Outline} (derivation : Source sentence outline)
    (valid : outline.Valid) : ∀ list ∈ outline.file.layouts, LaidOut source sentence list := by
  have once : ((outline.file.package).map Package.layout).toList =
      (outline.statements.filterMap Parser.Statement.package?).map Package.layout := by
    have atMostOne := valid.package
    change (((outline.statements.filterMap Parser.Statement.package?).head?).map
      Package.layout).toList = _
    generalize outline.statements.filterMap Parser.Statement.package? = packages at *
    match packages with
    | [] | [_] => rfl
    | _ :: _ :: _ => simp at atMostOne
  rw [File.layouts, once]
  simp only [List.forall_mem_cons]
  cases derivation with
  | plain many =>
      rcases many.laidOut_statements source with ⟨package, imports, options, items⟩
      exact ⟨package, imports, options, items, nofun⟩
  | @versioned front back version statements first many =>
      rcases many.laidOut_statements source with ⟨package, imports, options, items⟩
      exact ⟨first.laidOut.append package, imports.after front, options.after front,
        items.after front, nofun⟩

end Grammar

/-- In an accepted source every span of the tree stands at a text that is not empty, names at
themselves and statements from their keywords to their ends. A span contains those inside it, and
those of one list follow each other. -/
theorem faithful_of_parse {name source : String} {tree : File}
    (parsed : parse name source = .ok tree) : tree.Faithful source := by
  rcases exists_outline_of_parse parsed with ⟨-, outline, derivation, rfl, valid⟩
  have laidOut : ∀ list ∈ outline.file.layouts, LaidOut source _ list := derivation.laidOut valid
  have run := run_lexemes source
  exact ⟨fun list member => (laidOut list member _ _ run).1.holds,
    fun list member => (laidOut list member _ _ run).2⟩

/-- A letter of two bytes moves an enum by one place more than its characters. -/
theorem faithful_of_parse_wide :
    ∃ tree, parse "e.proto" "/*é*/enum E\x7bA=0;\x7d" = .ok tree ∧
      tree.items.map (fun item => item.layout.span) = [⟨6, 18⟩] ∧
      tree.Faithful "/*é*/enum E\x7bA=0;\x7d" := by
  have computed : (parse "e.proto" "/*é*/enum E\x7bA=0;\x7d").toOption.map
      (fun tree => tree.items.map fun item => item.layout.span) = some [⟨6, 18⟩] := by
    decide +kernel
  rcases Option.map_eq_some_iff.mp computed with ⟨tree, accepted, spans⟩
  cases parsed : parse "e.proto" "/*é*/enum E\x7bA=0;\x7d" with
  | error failure => simp [parsed, Except.toOption] at accepted
  | ok other =>
      rw [parsed] at accepted
      cases accepted
      exact ⟨tree, rfl, spans, faithful_of_parse parsed⟩

end ProtoSchema.Syntax
