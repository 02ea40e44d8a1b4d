import ProtoSchema.Proofs.Draft.Building
import ProtoSchema.Proofs.Syntax.Walk
/-! # Assembling a file from events

A draft is drawn up by recursion on the tree. The same declarations come of a walk through the
tree that keeps the declarations it has entered on a stack: each is pushed when it is entered,
and handed to the one below it when it is left. Names, parents and scopes are not known to the
walk. A stack on which a declaration does not fit has no next one.
-/

namespace ProtoSchema

open Syntax (Event)

namespace Draft

/-! ## The stack -/

/-- A declaration that has been entered and not left. -/
inductive Frame
  | file (file : ProtoFile)
  | message (message : Message)
  | oneof (oneof : Oneof) (members : List Field)
  | enum (enum : Enum)
  | service (service : Service)
  | method (method : Method)
  | extension (extension : Extension)

/-- Options with some more entries behind them. -/
def addOptions (entries : List Syntax.OptionEntry) (own : Options) : Options :=
  ⟨own.entries ++ (options entries).entries⟩

namespace Frame

/-- A declaration with other options. An extend block has none. -/
def changeOptions (change : Options → Options) : Frame → Option Frame
  | file own => some (file { own with options := change own.options })
  | message own => some (message { own with options := change own.options })
  | oneof own members => some (oneof { own with options := change own.options } members)
  | enum own => some (enum { own with options := change own.options })
  | service own => some (service { own with options := change own.options })
  | method own => some (method { own with options := change own.options })
  | extension _ => none

/-- A declaration with one more field. -/
def addField (added : Field) : Frame → Option Frame
  | message own => some (message { own with fields := own.fields ++ [added] })
  | oneof own members => some (oneof own (members ++ [added]))
  | extension own => some (extension { own with fields := own.fields ++ [added] })
  | _ => none

/-- A message with one more oneof and its fields. -/
def addOneof (added : Oneof) (members : List Field) : Frame → Option Frame
  | message own =>
      some (message { own with
        oneofs := own.oneofs ++ [added]
        fields := own.fields ++
          members.map fun member => { member with oneof := some own.oneofs.length } })
  | _ => none

def addValue (added : EnumValue) : Frame → Option Frame
  | enum own => some (enum { own with values := own.values ++ [added] })
  | _ => none

def addMethod (added : Method) : Frame → Option Frame
  | service own => some (service { own with methods := own.methods ++ [added] })
  | _ => none

/-- A file or a message that holds one more message. -/
def holdMessage (id : MessageId) : Frame → Option Frame
  | file own => some (file { own with messages := own.messages ++ [id] })
  | message own => some (message { own with messages := own.messages ++ [id] })
  | _ => none

def holdEnum (id : EnumId) : Frame → Option Frame
  | file own => some (file { own with enums := own.enums ++ [id] })
  | message own => some (message { own with enums := own.enums ++ [id] })
  | _ => none

def holdExtension (id : ExtensionId) : Frame → Option Frame
  | file own => some (file { own with extensions := own.extensions ++ [id] })
  | message own => some (message { own with extensions := own.extensions ++ [id] })
  | _ => none

end Frame

/-- The declarations around the next event, innermost first. The last of them is the file. -/
abbrev Stack : Type := List Frame

namespace Stack

/-- Takes off the innermost declaration, but never the file. -/
def pop : Stack → Option (Frame × Stack)
  | top :: next :: rest => some (top, next :: rest)
  | _ => none

def changeTop (change : Frame → Option Frame) : Stack → Option Stack
  | [] => none
  | top :: rest => (change top).map (· :: rest)

def file? : Stack → Option ProtoFile
  | [] => none
  | [.file file] => some file
  | [_] => none
  | _ :: next :: rest => file? (next :: rest)

def changeFile (change : ProtoFile → ProtoFile) : Stack → Option Stack
  | [] => none
  | [.file file] => some [.file (change file)]
  | [_] => none
  | top :: next :: rest => (changeFile change (next :: rest)).map (top :: ·)

/-- Gives a declaration the next number of its kind, and hands it to the one around it. -/
def leave (count : ProtoFile → Nat) (push : ProtoFile → ProtoFile)
    (hold : Nat → Frame → Option Frame) (stack : Stack) : Option Stack := do
  let number := count (← stack.file?)
  changeTop (hold number) (← stack.changeFile push)

end Stack

/-! ## Declarations when they are entered -/

def enteredMessage (source : Source) (declared : Syntax.Message) : Message :=
  { name := declared.name.name
    fullName := ""
    parent := .file source.file
    scope := []
    fields := []
    oneofs := []
    messages := []
    enums := []
    extensions := []
    extensionRanges := declared.extensions.flatMap fun statement => statement.ranges.map tagRange
    reservedRanges := reservedRanges declared.reserved
    reservedNames := reservedNames declared.reserved
    options := {}
    comments := declared.comments
    location := source.locate declared.span
    span := declared.name.span }

def enteredOneof (source : Source) (declared : Syntax.Oneof) : Oneof :=
  { name := declared.name.name
    options := {}
    comments := declared.comments
    location := source.locate declared.span }

def enteredEnum (source : Source) (declared : Syntax.Enum) : Enum :=
  { name := declared.name.name
    fullName := ""
    parent := .file source.file
    values := []
    reservedRanges := reservedRanges declared.reserved
    reservedNames := reservedNames declared.reserved
    options := {}
    comments := declared.comments
    location := source.locate declared.span
    span := declared.name.span }

def enteredExtension (source : Source) (declared : Syntax.Extend) : Extension :=
  { writtenExtendee := declared.extendee.text
    fields := []
    namespaceName := ""
    parent := .file source.file
    scope := []
    comments := declared.comments
    location := source.locate declared.span
    extendeeSpan := declared.extendee.span }

def enteredService (source : Source) (declared : Syntax.Service) : Service :=
  { name := declared.name.name
    fullName := ""
    methods := []
    options := {}
    comments := declared.comments
    location := source.locate declared.span
    span := declared.name.span }

def enteredMethod (source : Source) (declared : Syntax.Method) : Method :=
  { method source declared with options := {} }

def enteredFile (id : FileId) (name : String) : ProtoFile :=
  { id, name
    package := none
    version := .proto2
    imports := []
    options := {}
    messages := []
    enums := []
    services := []
    extensions := []
    allMessages := #[]
    allEnums := #[]
    allServices := #[]
    allExtensions := #[] }

/-! ## Steps -/

/-- What an event makes of the stack. -/
def step (source : Source) : Event → Stack → Option Stack
  | .enterFile tree, stack =>
      stack.changeFile fun file =>
        { file with
          package := filePackage tree
          version := tree.version
          imports := tree.imports.map importStatement }
  | .exitFile _, stack => some stack
  | .enterMessage declared, stack => some (.message (enteredMessage source declared) :: stack)
  | .exitMessage _, stack =>
      match stack.pop with
      | some (.message own, rest) =>
          rest.leave (·.allMessages.size)
            (fun file => { file with allMessages := file.allMessages.push own })
            fun number => Frame.holdMessage ⟨source.file, number⟩
      | _ => none
  | .field declared, stack => stack.changeTop (Frame.addField (field source.locate declared))
  | .enterOneof declared, stack => some (.oneof (enteredOneof source declared) [] :: stack)
  | .exitOneof _, stack =>
      match stack.pop with
      | some (.oneof own members, rest) => rest.changeTop (Frame.addOneof own members)
      | _ => none
  | .enterEnum declared, stack => some (.enum (enteredEnum source declared) :: stack)
  | .exitEnum _, stack =>
      match stack.pop with
      | some (.enum own, rest) =>
          rest.leave (·.allEnums.size)
            (fun file => { file with allEnums := file.allEnums.push own })
            fun number => Frame.holdEnum ⟨source.file, number⟩
      | _ => none
  | .value declared, stack => stack.changeTop (Frame.addValue (enumValue source declared))
  | .enterExtend declared, stack => some (.extension (enteredExtension source declared) :: stack)
  | .exitExtend _, stack =>
      match stack.pop with
      | some (.extension own, rest) =>
          rest.leave (·.allExtensions.size)
            (fun file => { file with allExtensions := file.allExtensions.push own })
            fun number => Frame.holdExtension ⟨source.file, number⟩
      | _ => none
  | .enterService declared, stack => some (.service (enteredService source declared) :: stack)
  | .exitService _, stack =>
      match stack.pop with
      | some (.service own, rest) =>
          rest.changeFile fun file =>
            { file with
              services := file.services ++ [⟨source.file, file.allServices.size⟩]
              allServices := file.allServices.push own }
      | _ => none
  | .enterMethod declared, stack => some (.method (enteredMethod source declared) :: stack)
  | .exitMethod _, stack =>
      match stack.pop with
      | some (.method own, rest) => rest.changeTop (Frame.addMethod own)
      | _ => none
  | .option entry, stack => stack.changeTop (Frame.changeOptions (addOptions [entry]))

/-- What some events make of the stack, one after the other. -/
def run (source : Source) : List Event → Stack → Option Stack
  | [], stack => some stack
  | event :: events, stack => (step source event stack).bind (run source events)

/-- The file that a walk leaves on the stack, if it leaves nothing else there. -/
def assemble (source : Source) (name : String) (events : List Event) : Option ProtoFile :=
  match run source events [.file (enteredFile source.file name)] with
  | some [.file file] => some file
  | _ => none

theorem run_append (source : Source) (first second : List Event) (stack : Stack) :
    run source (first ++ second) stack = (run source first stack).bind (run source second) := by
  induction first generalizing stack with
  | nil => rfl
  | cons event first induction =>
      rw [List.cons_append, run, run, Option.bind_assoc]
      exact congrArg _ (funext induction)

theorem run_singleton (source : Source) (event : Event) (stack : Stack) :
    run source [event] stack = step source event stack := by
  cases next : step source event stack <;> simp [run, next]

/-! ## Runs of small events -/

theorem addOptions_cons (entry : Syntax.OptionEntry) (entries : List Syntax.OptionEntry) :
    addOptions (entry :: entries) = addOptions entries ∘ addOptions [entry] := by
  funext own
  simp [addOptions, options]

theorem Frame.changeOptions_comp (first second : Options → Options) (frame : Frame) :
    frame.changeOptions (second ∘ first) =
      (frame.changeOptions first).bind (changeOptions second) := by
  cases frame <;> rfl

theorem run_options (source : Source) (entries : List Syntax.OptionEntry) {frame after : Frame}
    (changed : frame.changeOptions (addOptions entries) = some after) (stack : Stack) :
    run source (entries.map .option) (frame :: stack) = some (after :: stack) := by
  induction entries generalizing frame with
  | nil =>
      have none : addOptions [] = id := by
        funext own
        simp [addOptions, options]
      rw [none] at changed
      cases frame <;> cases changed <;> rfl
  | cons entry entries induction =>
      rw [addOptions_cons, Frame.changeOptions_comp] at changed
      rcases Option.bind_eq_some_iff.mp changed with ⟨middle, first, rest⟩
      rw [List.map_cons, run, step, Stack.changeTop, first, Option.map_some, Option.bind_some]
      exact induction rest

theorem run_members (source : Source) (declared : List Syntax.Field) (own : Oneof)
    (members : List Field) (stack : Stack) :
    run source (declared.map .field) (.oneof own members :: stack) =
      some (.oneof own (members ++ declared.map (field source.locate)) :: stack) := by
  induction declared generalizing members with
  | nil => simp [run]
  | cons first declared induction =>
      rw [List.map_cons, run, step, Stack.changeTop, Frame.addField, Option.map_some,
        Option.bind_some, induction, List.map_cons, List.append_assoc, List.singleton_append]

theorem run_extensionFields (source : Source) (declared : List Syntax.Field) (own : Extension)
    (stack : Stack) :
    run source (declared.map .field) (.extension own :: stack) =
      some (.extension { own with fields := own.fields ++ declared.map (field source.locate) } ::
        stack) := by
  induction declared generalizing own with
  | nil => simp [run]
  | cons first declared induction =>
      rw [List.map_cons, run, step, Stack.changeTop, Frame.addField, Option.map_some,
        Option.bind_some, induction, List.map_cons, List.append_assoc, List.singleton_append]

theorem run_values (source : Source) (declared : List Syntax.EnumValue) (own : Enum)
    (stack : Stack) :
    run source (declared.map .value) (.enum own :: stack) =
      some (.enum { own with values := own.values ++ declared.map (enumValue source) } ::
        stack) := by
  induction declared generalizing own with
  | nil => simp [run]
  | cons first declared induction =>
      rw [List.map_cons, run, step, Stack.changeTop, Frame.addValue, Option.map_some,
        Option.bind_some, induction, List.map_cons, List.append_assoc, List.singleton_append]

theorem run_method (source : Source) (declared : Syntax.Method) (own : Service) (stack : Stack) :
    run source declared.events (.service own :: stack) =
      some (.service { own with methods := own.methods ++ [method source declared] } :: stack) := by
  have entered : Frame.changeOptions (addOptions declared.options)
      (.method (enteredMethod source declared)) = some (.method (method source declared)) := rfl
  rw [Syntax.Method.events, List.cons_append, run, step, Option.bind_some, run_append,
    run_options source _ entered, Option.bind_some, run_singleton]
  rfl

theorem run_methods (source : Source) (declared : List Syntax.Method) (own : Service)
    (stack : Stack) :
    run source (declared.flatMap Syntax.Method.events) (.service own :: stack) =
      some (.service { own with methods := own.methods ++ declared.map (method source) } ::
        stack) := by
  induction declared generalizing own with
  | nil => simp [run]
  | cons first declared induction =>
      rw [List.flatMap_cons, run_append, run_method, Option.bind_some, induction, List.map_cons,
        List.append_assoc, List.singleton_append]

/-! ## What the recursion knows beyond the walk -/

end Draft

/-- A message as a walk leaves it, without what follows from the place it stands at. -/
def Message.unnamed (file : FileId) (message : Message) : Message :=
  { message with fullName := "", parent := .file file, scope := [] }

def Enum.unnamed (file : FileId) (enum : Enum) : Enum :=
  { enum with fullName := "", parent := .file file }

def Service.unnamed (service : Service) : Service :=
  { service with fullName := "" }

def Extension.unnamed (file : FileId) (extension : Extension) : Extension :=
  { extension with namespaceName := "", parent := .file file, scope := [] }

def ProtoFile.unnamed (file : ProtoFile) : ProtoFile :=
  { file with
    allMessages := file.allMessages.map (Message.unnamed file.id)
    allEnums := file.allEnums.map (Enum.unnamed file.id)
    allServices := file.allServices.map Service.unnamed
    allExtensions := file.allExtensions.map (Extension.unnamed file.id) }

namespace Draft

/-! ## Stacks of messages -/

/-- The stack inside of messages, innermost first. -/
def within (file : ProtoFile) (messages : List Message) : Stack :=
  messages.map .message ++ [.file file]

/-- A file with the declarations that have a number. -/
def enrolled (source : Source) (numbered : Numbered) (file : ProtoFile) : ProtoFile :=
  { file with
    allMessages := numbered.messages.map (Message.unnamed source.file)
    allEnums := numbered.enums.map (Enum.unnamed source.file)
    allExtensions := numbered.extensions.map (Extension.unnamed source.file) }

/-- A file that holds some contents. -/
def fileHolding (contents : Contents) (file : ProtoFile) : ProtoFile :=
  { file with
    messages := contents.messages
    enums := contents.enums
    extensions := contents.extensions }

def messageHolding (contents : Contents) (message : Message) : Message :=
  { message with
    fields := contents.fields
    oneofs := contents.oneofs
    messages := contents.messages
    enums := contents.enums
    extensions := contents.extensions }

/-- A file and messages inside each other, with some contents in the innermost of them. -/
def holding (contents : Contents) (file : ProtoFile) : List Message → ProtoFile × List Message
  | [] => (fileHolding contents file, [])
  | host :: around => (file, messageHolding contents host :: around)

/-- The stack when something has been met in the innermost of some messages, or else in the
file. -/
def stackOf (source : Source) (file : ProtoFile) (messages : List Message)
    (state : Contents × Numbered) : Stack :=
  within (enrolled source state.2 (holding state.1 file messages).1)
    (holding state.1 file messages).2

theorem pop_within (frame : Frame) (file : ProtoFile) (messages : List Message) :
    Stack.pop (frame :: within file messages) = some (frame, within file messages) := by
  cases messages <;> rfl

theorem file?_within (file : ProtoFile) (messages : List Message) :
    (within file messages).file? = some file := by
  induction messages with
  | nil => rfl
  | cons message messages induction =>
      cases messages <;> exact induction

theorem changeFile_within (change : ProtoFile → ProtoFile) (file : ProtoFile)
    (messages : List Message) :
    (within file messages).changeFile change = some (within (change file) messages) := by
  induction messages with
  | nil => rfl
  | cons message messages induction =>
      cases messages <;> exact congrArg (Option.map _) induction

theorem leave_within (count : ProtoFile → Nat) (push : ProtoFile → ProtoFile)
    (hold : Nat → Frame → Option Frame) (file : ProtoFile) (messages : List Message) :
    (within file messages).leave count push hold =
      (within (push file) messages).changeTop (hold (count file)) := by
  rw [Stack.leave, file?_within, changeFile_within]
  rfl

/-! ## Walks through declarations -/

variable (source : Source)

theorem run_field (file : ProtoFile) (place : Place) (declared : Syntax.Field) (host : Message)
    (around : List Message) (state : Contents × Numbered) :
    run source [.field declared] (stackOf source file (host :: around) state) =
      some (stackOf source file (host :: around)
        (addItem source place (.field declared) state)) := by
  rw [run_singleton]
  rfl

theorem run_oneof (file : ProtoFile) (place : Place) (declared : Syntax.Oneof) (host : Message)
    (around : List Message) (state : Contents × Numbered) :
    run source declared.events (stackOf source file (host :: around) state) =
      some (stackOf source file (host :: around)
        (addItem source place (.oneof declared) state)) := by
  have entered : Frame.changeOptions (addOptions declared.options)
      (.oneof (enteredOneof source declared) []) =
      some (.oneof { enteredOneof source declared with options := options declared.options } []) :=
    rfl
  rw [Syntax.Oneof.events, List.cons_append, List.cons_append, run, step, Option.bind_some,
    run_append, run_append, run_options source _ entered, Option.bind_some, run_members,
    Option.bind_some, run_singleton, step, stackOf, pop_within]
  simp [Stack.changeTop, within, holding, Frame.addOneof, stackOf, addItem, addOneof,
    messageHolding, Function.comp_def, enteredOneof]

theorem run_enum (file : ProtoFile) (place : Place) (declared : Syntax.Enum)
    (messages : List Message) (state : Contents × Numbered) :
    run source declared.events (stackOf source file messages state) =
      some (stackOf source file messages (addEnum source place declared state)) := by
  have entered : Frame.changeOptions (addOptions declared.options)
      (.enum (enteredEnum source declared)) =
      some (.enum { enteredEnum source declared with options := options declared.options }) :=
    rfl
  rw [Syntax.Enum.events, List.cons_append, List.cons_append, run, step, Option.bind_some,
    run_append, run_append, run_options source _ entered, Option.bind_some, run_values,
    Option.bind_some, run_singleton, step, stackOf, pop_within]
  dsimp only
  rw [leave_within]
  cases messages <;>
    simp [Stack.changeTop, within, holding, Frame.holdEnum, stackOf, addEnum, enrolled,
      messageHolding, fileHolding, enteredEnum, Enum.unnamed]

theorem run_extend (file : ProtoFile) (place : Place) (declared : Syntax.Extend)
    (messages : List Message) (state : Contents × Numbered) :
    run source declared.events (stackOf source file messages state) =
      some (stackOf source file messages (addExtend source place declared state)) := by
  rw [Syntax.Extend.events, List.cons_append, run, step, Option.bind_some, run_append,
    run_extensionFields, Option.bind_some, run_singleton, step, stackOf, pop_within]
  dsimp only
  rw [leave_within]
  cases messages <;>
    simp [Stack.changeTop, within, holding, Frame.holdExtension, stackOf, addExtend, enrolled,
      messageHolding, fileHolding, enteredExtension, Extension.unnamed]

/-- A walk through a message, once the walk through what is inside it is known. -/
theorem run_message_of_inside (file : ProtoFile) (place : Place) (declared : Syntax.Message)
    (messages : List Message) (contents inner : Contents) (numbered after : Numbered)
    (inside : ∀ (file : ProtoFile) (host : Message) (around : List Message),
      run source (declared.items.flatMap Syntax.MessageItem.events)
          (stackOf source file (host :: around) ({}, numbered)) =
        some (stackOf source file (host :: around) (inner, after))) :
    run source declared.events (stackOf source file messages (contents, numbered)) =
      some (stackOf source file messages
        (withMessage source place declared contents inner after)) := by
  have entered : Frame.changeOptions (addOptions declared.options)
      (.message (enteredMessage source declared)) =
      some (.message { enteredMessage source declared with options := options declared.options }) :=
    rfl
  have begins : Frame.message { enteredMessage source declared with
        options := options declared.options } :: stackOf source file messages (contents, numbered) =
      stackOf source (holding contents file messages).1
        ({ enteredMessage source declared with options := options declared.options } ::
          (holding contents file messages).2) ({}, numbered) := rfl
  rw [Syntax.Message.events_eq, List.cons_append, List.cons_append, run, step, Option.bind_some,
    run_append, run_append, run_options source _ entered, Option.bind_some, begins, inside,
    Option.bind_some, run_singleton, step, stackOf, holding, within, List.map_cons,
    List.cons_append, ← within, pop_within]
  dsimp only
  rw [leave_within]
  cases messages <;>
    simp [Stack.changeTop, within, holding, Frame.holdMessage, stackOf, withMessage, nextMessage,
      message, enrolled, messageHolding, fileHolding, enteredMessage, Message.unnamed]

mutual

theorem run_message (file : ProtoFile) (place : Place) (declared : Syntax.Message)
    (messages : List Message) (state : Contents × Numbered) :
    run source declared.events (stackOf source file messages state) =
      some (stackOf source file messages (addMessage source place declared state)) := by
  rcases declared with ⟨name, items, entries, extensions, reserved, comments, span⟩
  rcases state with ⟨contents, numbered⟩
  rw [addMessage_eq]
  exact run_message_of_inside source file place _ messages contents _ numbered _
    fun file host around => run_items file _ items host around ({}, numbered)

theorem run_item (file : ProtoFile) (place : Place) (item : Syntax.MessageItem) (host : Message)
    (around : List Message) (state : Contents × Numbered) :
    run source item.events (stackOf source file (host :: around) state) =
      some (stackOf source file (host :: around) (addItem source place item state)) := by
  cases item with
  | field declared => exact run_field source file place declared host around state
  | oneof declared => exact run_oneof source file place declared host around state
  | message declared =>
      rw [addItem]
      exact run_message file place declared (host :: around) state
  | enum declared => exact run_enum source file place declared (host :: around) state
  | extend declared => exact run_extend source file place declared (host :: around) state

theorem run_items (file : ProtoFile) (place : Place) (items : List Syntax.MessageItem)
    (host : Message) (around : List Message) (state : Contents × Numbered) :
    run source (items.flatMap Syntax.MessageItem.events)
        (stackOf source file (host :: around) state) =
      some (stackOf source file (host :: around) (addItems source place items state)) := by
  cases items with
  | nil => rw [addItems, List.flatMap_nil, run]
  | cons item items =>
      rw [addItems, List.flatMap_cons, run_append, run_item file place, Option.bind_some]
      exact run_items file place items host around (addItem source place item state)

end

/-! ## Walks through files -/

/-- A file with some services, which are numbered in their order. -/
def serving (services : List Service) (file : ProtoFile) : ProtoFile :=
  { file with
    services := (List.range services.length).map fun index : Nat =>
      (⟨source.file, index⟩ : ServiceId)
    allServices := services.toArray }

theorem run_service (file : ProtoFile) (place : Place) (declared : Syntax.Service)
    (services : List Service) (state : Contents × Numbered) :
    run source declared.events (stackOf source (serving source services file) [] state) =
      some (stackOf source (serving source
        (services ++ [(service source place declared).unnamed]) file) [] state) := by
  have entered : Frame.changeOptions (addOptions declared.options)
      (.service (enteredService source declared)) =
      some (.service { enteredService source declared with options := options declared.options }) :=
    rfl
  rw [Syntax.Service.events, List.cons_append, List.cons_append, run, step, Option.bind_some,
    run_append, run_append, run_options source _ entered, Option.bind_some, run_methods,
    Option.bind_some, run_singleton, step, stackOf, pop_within]
  dsimp only
  rw [changeFile_within]
  simp [stackOf, within, holding, fileHolding, enrolled, serving, List.range_succ, service,
    enteredService, Service.unnamed]

/-- The services among the declarations of a file. -/
def servicesOf (items : List Syntax.FileItem) : List Syntax.Service :=
  items.filterMap fun
    | .service declared => some declared
    | _ => none

theorem run_fileItems (file : ProtoFile) (place : Place) (items : List Syntax.FileItem)
    (services : List Service) (state : Contents × Numbered) :
    run source (items.flatMap Syntax.FileItem.events)
        (stackOf source (serving source services file) [] state) =
      some (stackOf source (serving source (services ++
          (servicesOf items).map fun declared => (service source place declared).unnamed) file) []
        (items.foldl (addFileItem source place) state)) := by
  induction items generalizing services state with
  | nil => simp [run, servicesOf]
  | cons item items induction =>
      rw [List.flatMap_cons, run_append, List.foldl_cons]
      cases item with
      | message declared =>
          rw [Syntax.FileItem.events, run_message source _ place, Option.bind_some, induction]
          rfl
      | enum declared =>
          rw [Syntax.FileItem.events, run_enum source _ place, Option.bind_some, induction]
          rfl
      | service declared =>
          rw [Syntax.FileItem.events, run_service source _ place, Option.bind_some, induction,
            List.append_assoc]
          rfl
      | extend declared =>
          rw [Syntax.FileItem.events, run_extend source _ place, Option.bind_some, induction]
          rfl

/-- A file when it has been entered and its options have been met. -/
def openedFile (id : FileId) (name : String) (tree : Syntax.File) : ProtoFile :=
  { enteredFile id name with
    package := filePackage tree
    version := tree.version
    imports := tree.imports.map importStatement
    options := options tree.options }

/-- A walk through a tree leaves the file of its draft, without what follows from places. -/
theorem assemble_events (id : FileId) (name source : String) (tree : Syntax.File) :
    assemble (fileSource id name source) name tree.events =
      some (ofTree id name source tree).file.unnamed := by
  have entered : Frame.changeOptions (addOptions tree.options)
      (.file { openedFile id name tree with options := {} }) =
      some (.file (openedFile id name tree)) := rfl
  have first : step (fileSource id name source) (.enterFile tree)
      [.file (enteredFile (fileSource id name source).file name)] =
      some [.file { openedFile id name tree with options := {} }] := rfl
  have begins : [Frame.file (openedFile id name tree)] = stackOf (fileSource id name source)
      (serving (fileSource id name source) [] (openedFile id name tree)) [] ({}, {}) := by
    simp [stackOf, within, holding, fileHolding, enrolled, serving, openedFile, enteredFile]
  have walked := run_fileItems (fileSource id name source) (openedFile id name tree)
    (filePlace id tree) tree.items [] ({}, {})
  have ends : run (fileSource id name source) tree.events
      [.file (enteredFile (fileSource id name source).file name)] =
      some (stackOf (fileSource id name source) (serving (fileSource id name source)
        ((servicesOf tree.items).map fun declared =>
          (service (fileSource id name source) (filePlace id tree) declared).unnamed)
        (openedFile id name tree)) [] (fileState id name source tree)) := by
    rw [Syntax.File.events, List.cons_append, List.cons_append, run, first, Option.bind_some,
      run_append, run_append, run_options _ _ entered, Option.bind_some, begins, walked,
      Option.bind_some, run_singleton]
    rfl
  have services : fileServices id name source tree = (servicesOf tree.items).map
      (service (fileSource id name source) (filePlace id tree)) := rfl
  have number : (fileSource id name source).file = id := rfl
  rw [assemble, ends]
  simp only [stackOf, within, holding, List.map_nil, List.nil_append]
  rw [file_ofTree, ProtoFile.unnamed, services]
  simp [serving, fileHolding, enrolled, openedFile, enteredFile, Function.comp_def, number]

end Draft

end ProtoSchema
