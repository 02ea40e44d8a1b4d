import ProtoSchema.Syntax.Tree
/-!
## Events

A tree as a sequence of events in the order of the source. Each declaration that
holds others is entered and left again; its option statements follow the entering
at once. The options of fields and of enum values stay with them.
-/

namespace ProtoSchema.Syntax

/-- An event of a walk through a file. -/
inductive Event
  | enterFile (file : File)
  | exitFile (file : File)
  | enterMessage (message : Message)
  | exitMessage (message : Message)
  | field (field : Field)
  | enterOneof (oneof : Oneof)
  | exitOneof (oneof : Oneof)
  | enterEnum (enum : Enum)
  | exitEnum (enum : Enum)
  | value (value : EnumValue)
  | enterExtend (extend : Extend)
  | exitExtend (extend : Extend)
  | enterService (service : Service)
  | exitService (service : Service)
  | enterMethod (method : Method)
  | exitMethod (method : Method)
  | option (option : OptionEntry)

namespace Event

def text : Event → String
  | enterFile file => s!"enter_file {file.items.length}"
  | exitFile _ => "exit_file"
  | enterMessage message => "enter_message " ++ message.name.name
  | exitMessage message => "exit_message " ++ message.name.name
  | field declared => s!"field {declared.type.text} {declared.name.name} {declared.number.text}"
  | enterOneof oneof => "enter_oneof " ++ oneof.name.name
  | exitOneof oneof => "exit_oneof " ++ oneof.name.name
  | enterEnum enum => "enter_enum " ++ enum.name.name
  | exitEnum enum => "exit_enum " ++ enum.name.name
  | value declared => "value " ++ declared.name.name
  | enterExtend extend => "enter_extend " ++ extend.extendee.text
  | exitExtend extend => "exit_extend " ++ extend.extendee.text
  | enterService service => "enter_service " ++ service.name.name
  | exitService service => "exit_service " ++ service.name.name
  | enterMethod method => s!"enter_method {method.name.name} {method.input.text} {method.output.text}"
  | exitMethod method => "exit_method " ++ method.name.name
  | option entry => s!"option {entry.name} = {entry.value.text}"

end Event

/-! ### Walks -/

def Oneof.events (oneof : Oneof) : List Event :=
  .enterOneof oneof :: oneof.options.map .option ++ oneof.fields.map .field ++ [.exitOneof oneof]

def Enum.events (enum : Enum) : List Event :=
  .enterEnum enum :: enum.options.map .option ++ enum.values.map .value ++ [.exitEnum enum]

def Extend.events (extend : Extend) : List Event :=
  .enterExtend extend :: extend.fields.map .field ++ [.exitExtend extend]

def Method.events (method : Method) : List Event :=
  .enterMethod method :: method.options.map .option ++ [.exitMethod method]

def Service.events (service : Service) : List Event :=
  .enterService service :: service.options.map .option ++
    service.methods.flatMap Method.events ++ [.exitService service]

mutual

def Message.events : Message → List Event
  | ⟨name, items, options, extensions, reserved, comments, span⟩ =>
      let message : Message := ⟨name, items, options, extensions, reserved, comments, span⟩
      .enterMessage message :: options.map .option ++ MessageItem.eventsOfAll items ++
        [.exitMessage message]

/-- The events of a declaration inside a message. -/
def MessageItem.events : MessageItem → List Event
  | .field declared => [.field declared]
  | .oneof declared => declared.events
  | .message declared => declared.events
  | .enum declared => declared.events
  | .extend declared => declared.events

/-- The events of declarations that follow each other. -/
def MessageItem.eventsOfAll : List MessageItem → List Event
  | [] => []
  | item :: items => item.events ++ MessageItem.eventsOfAll items

end

/-- The events of a declaration of a file. -/
def FileItem.events : FileItem → List Event
  | .message declared => declared.events
  | .enum declared => declared.events
  | .service declared => declared.events
  | .extend declared => declared.events

def File.events (file : File) : List Event :=
  .enterFile file :: file.options.map .option ++ file.items.flatMap FileItem.events ++
    [.exitFile file]

end ProtoSchema.Syntax
