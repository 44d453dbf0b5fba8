import VerbExpansion.Builtin
import VerbExpansion.ConfigError
import VerbExpansion.TypedCommand

/-!
# Calls of builtins

A verb may execute a builtin, perhaps with a bang and an argument. A call is written as a typed
command.
-/

namespace VerbExpansion

/-- A builtin as it is executed. -/
structure BuiltinCall where
  builtin : Builtin
  /-- Whether the result opens in a new panel. -/
  bang : Bool := false
  argument : Option Text := none
  deriving DecidableEq

namespace BuiltinCall

/-- The builtin with this name, or the error that there is none. -/
def builtinNamed (name : Text) : Except ConfigError Builtin :=
  match Builtin.ofName? name with
  | some builtin => .ok builtin
  | none => .error (.unknownBuiltin name)

/-- The call that a typed command makes. -/
def ofCommand (command : TypedCommand) : Except ConfigError BuiltinCall :=
  match builtinNamed command.name with
  | .ok builtin => .ok ⟨builtin, command.bang, command.arguments⟩
  | .error error => .error error

/-- The call that a text types. -/
def ofText (text : Text) : Except ConfigError BuiltinCall :=
  ofCommand (TypedCommand.ofText text)

/-- The call as it is typed, with a colon. Only a call with an argument is written out. -/
def text? (call : BuiltinCall) : Option Text :=
  call.argument.map fun argument =>
    .scalar ':' :: TypedCommand.text ⟨call.builtin.name, call.bang, some argument⟩

end BuiltinCall

end VerbExpansion
