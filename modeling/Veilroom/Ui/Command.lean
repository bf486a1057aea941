import Veilroom.Room.Action
import Veilroom.Uri.Invitation

/-!
The lines a user types (`command.rs`): the parser of slash commands and chat text.

`str::parse` of a `u64` is the one of the standard library: it takes a leading plus sign.
-/
namespace Veilroom

/-- `CommandError`. -/
inductive CommandError
  | emptyLine
  | unknownCommand (name : String)
  | missingArgument (command : String)
  | unexpectedArgument (command arg : String)
  | invalidArgument (command detail : String)
  | controlCharacterNotAllowed (command : String)
deriving DecidableEq

def CommandError.toString : CommandError → String
  | .emptyLine => "input line is empty"
  | .unknownCommand name => s!"unknown command `/{name}`"
  | .missingArgument command => s!"command `/{command}` requires an argument"
  | .unexpectedArgument command arg =>
      s!"command `/{command}` does not accept arguments, got `{arg}`"
  | .invalidArgument command detail => s!"invalid argument for `/{command}`: {detail}"
  | .controlCharacterNotAllowed command =>
      s!"argument for `/{command}` contains control characters or ANSI escape sequences"

/-- `KickTarget`. -/
inductive KickTarget
  | id (id : MemberId)
  | nickname (nickname : String)
deriving DecidableEq

/-- `SlashCommand`. -/
inductive SlashCommand
  | help | exit | leave
  | color (color : ColorChoice)
  | colorList | list
  | whois (member : String)
  | kick (target : KickTarget)
  | newId | reqOn | reqOff | requests
  | accept (requestId : RequestId)
  | reject (requestId : RequestId)
  | copy | clear
  | timeout (interval : Option Nat)
  | timeoutRequest (seconds : Nat)
deriving DecidableEq

/-- `ParsedLine`. -/
inductive ParsedLine
  | command (command : SlashCommand)
  | chat (text : String)
deriving DecidableEq

/-- `ColorChoice::name`. -/
def ColorChoice.name : ColorChoice → String
  | .red => "red" | .green => "green" | .yellow => "yellow" | .blue => "blue"
  | .magenta => "magenta" | .cyan => "cyan" | .white => "white"

/-- `ColorChoice::ALL`. -/
def ColorChoice.all : List ColorChoice := [.red, .green, .yellow, .blue, .magenta, .cyan, .white]

/-- `str::parse::<u64>`. -/
def parseU64 (text : List Char) : Option Nat :=
  let digits := match text with
    | '+' :: digit :: digits => digit :: digits
    | text => text
  if Uri.isAsciiDigits digits then Uri.parseUnsigned 64 digits else none

/-- `no_args`. -/
def noArgs (name : String) (args : List Char) (command : SlashCommand) :
    Except CommandError SlashCommand :=
  if args = [] then .ok command else .error (.unexpectedArgument name (String.ofList args))

/-- `parse_simple_arg`. -/
def parseSimpleArg (command : String) (args : List Char) : Except CommandError (List Char) :=
  if args = [] then .error (.missingArgument command)
  else if containsControlChar args then .error (.controlCharacterNotAllowed command)
  else .ok args

/-- `parse_color`. -/
def parseColor (args : List Char) : Except CommandError ColorChoice :=
  match parseSimpleArg "color" args with
  | .error error => .error error
  | .ok args =>
    match String.ofList args with
    | "red" => .ok .red
    | "green" => .ok .green
    | "yellow" => .ok .yellow
    | "blue" => .ok .blue
    | "magenta" => .ok .magenta
    | "cyan" => .ok .cyan
    | "white" => .ok .white
    | name => .error (.invalidArgument "color" s!"unknown color `{name}`")

/-- `parse_timeout`. -/
def parseTimeout (args : List Char) : Except CommandError (Option Nat) :=
  match parseSimpleArg "timeout" args with
  | .error error => .error error
  | .ok args =>
    if args = "off".toList then .ok none
    else
      match parseU64 args with
      | none => .error (.invalidArgument "timeout"
          s!"expected a positive number of seconds or `off`, got `{String.ofList args}`")
      | some seconds =>
        if seconds = 0 then .error (.invalidArgument "timeout"
          "the message lifetime must be at least 1 second")
        else if seconds > maxMessageTimeoutSeconds then .error (.invalidArgument "timeout"
          s!"the message lifetime may not exceed {maxMessageTimeoutSeconds} seconds")
        else .ok (some seconds)

/-- `parse_timeout_request`: the errors of `parse_timeout` under the other command's name. -/
def parseTimeoutRequest (args : List Char) : Except CommandError Nat :=
  match parseTimeout args with
  | .error (.missingArgument _) => .error (.missingArgument "timeoutreq")
  | .error (.controlCharacterNotAllowed _) => .error (.controlCharacterNotAllowed "timeoutreq")
  | .error (.invalidArgument _ detail) => .error (.invalidArgument "timeoutreq" detail)
  | .error other => .error other
  | .ok (some seconds) => .ok seconds
  | .ok none => .error (.invalidArgument "timeoutreq"
      "members must request a positive number of seconds")

/-- `parse_kick_target`. -/
def parseKickTarget (args : List Char) : Except CommandError KickTarget :=
  match parseSimpleArg "kick" args with
  | .error error => .error error
  | .ok arg =>
    if Uri.isAsciiDigits arg then
      match parseU64 arg with
      | none => .error (.invalidArgument "kick" s!"invalid member id `{String.ofList arg}`")
      | some id => .ok (.id id)
    else .ok (.nickname (String.ofList arg))

/-- `parse_request_id`. -/
def parseRequestId (command : String) (args : List Char) : Except CommandError RequestId :=
  match parseSimpleArg command args with
  | .error error => .error error
  | .ok arg =>
    if ¬ Uri.isAsciiDigits arg then .error (.invalidArgument command
      s!"expected a numeric request id, got `{String.ofList arg}`")
    else
      match parseU64 arg with
      | none => .error (.invalidArgument command s!"invalid request id `{String.ofList arg}`")
      | some id => .ok id

/-- The `match name` of `parse_line`. -/
def parseCommand (name : String) (args : List Char) : Except CommandError SlashCommand :=
  match name with
  | "help" => noArgs "help" args .help
  | "exit" => noArgs "exit" args .exit
  | "leave" => noArgs "leave" args .leave
  | "list" => noArgs "list" args .list
  | "newid" => noArgs "newid" args .newId
  | "reqon" => noArgs "reqon" args .reqOn
  | "reqoff" => noArgs "reqoff" args .reqOff
  | "requests" => noArgs "requests" args .requests
  | "copy" => noArgs "copy" args .copy
  | "clear" => noArgs "clear" args .clear
  | "color" => if args = "list".toList then .ok .colorList else (parseColor args).map .color
  | "timeout" => (parseTimeout args).map .timeout
  | "timeoutreq" => (parseTimeoutRequest args).map .timeoutRequest
  | "whois" => (parseSimpleArg "whois" args).map fun arg => .whois (String.ofList arg)
  | "kick" => (parseKickTarget args).map .kick
  | "accept" => (parseRequestId "accept" args).map .accept
  | "reject" => (parseRequestId "reject" args).map .reject
  | name => .error (.unknownCommand name)

/-- `parse_line`. -/
def parseLine (line : String) : Except CommandError ParsedLine :=
  match line.toList with
  | [] => .error .emptyLine
  | '/' :: '/' :: rest => .ok (.chat (String.ofList ('/' :: rest)))
  | '/' :: rest =>
    if (rest.head?.map isWhitespace).getD false then .ok (.chat line)
    else
      let trimmed := rest.dropWhile isWhitespace
      let name := trimmed.takeWhile (!isWhitespace ·)
      let args := (trimmed.dropWhile (!isWhitespace ·)).dropWhile isWhitespace
      (parseCommand (String.ofList name) args).map .command
  | _ => .ok (.chat line)

end Veilroom
