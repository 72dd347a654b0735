import XofConformance.Bytes.Codec
import XofConformance.Exchange.Call
import XofConformance.Json.Writer

/-!
# Messages

A request is one line: an object with an identifier, the operation, the arguments in hexadecimal,
and how many results are expected. A reply is a line with an object that names the identifier,
says whether the operation was carried out, and holds the results in hexadecimal or the reason.
-/

namespace XofConformance.Actor

/-! ## Requests -/

/-- The object of a request. -/
def request (id : Nat) (c : Call) : Json :=
  .object [("id", .int id), ("op", .text c.op),
    ("params", .object
      [("args", .array (c.args.map fun a => .text a.toHex)), ("expect", .int c.expected)])]

/-- A request as a line. -/
def requestLine (id : Nat) (c : Call) : Text :=
  Json.write Json.compact (request id c) ++ [0x0A]

/-! ## Replies -/

/-- What a request comes to. -/
abbrev Answer := Except ActorFault (List Bytes)

/-- The texts that a list is made of, if it is made of texts. -/
def texts? : List Json → Option (List Text)
  | [] => some []
  | .text t :: rest => (texts? rest).map (t :: ·)
  | _ => none

/-- Byte strings in hexadecimal. -/
def decodeAll : List Text → Answer
  | [] => .ok []
  | t :: rest =>
    match Bytes.decodeHex t with
    | .error why => .error (.badOutput why)
    | .ok b => do return b :: (← decodeAll rest)

/-- The results in a reply. -/
def outputs (reply : Json) : Answer :=
  match (((reply.field "result").field "outputs").items?).bind texts? with
  | some ts => decodeAll ts
  | none => .error .noOutputs

/-- A value in words, or others if it is empty. -/
def shownOr (word : String) (v : Json) : Text := if v.isEmpty then word else v.shown

/-- The reason in a reply: a code and a message, or whatever stands there. -/
def reason (reply : Json) : Text :=
  match reply.field "error" with
  | .object fields =>
    let error := Json.object fields
    Text.dropEndWhile (fun c => c == 0x3A || c == 0x20)
      (Text.concat [shownOr "ERROR" (error.field "code"), ": ",
        shownOr "" (error.field "message")])
  | error => shownOr "actor returned ok=false" error

/-- What a reply says: the operation was carried out only if the reply says exactly so. -/
def answerOf (reply : Json) : Answer :=
  match reply.field "ok" with
  | .bool true => outputs reply
  | _ => .error (.refused (reason reply))

end XofConformance.Actor
