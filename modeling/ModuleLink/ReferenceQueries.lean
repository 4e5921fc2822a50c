import ModuleLink.ReplyWaiting

/-! # Asking the router about an exchange

The router answers for the status of an exchange and for the data that was sent under it, and is
told when an exchange is over. -/
namespace ModuleLink.ModuleContext

def statusQuery : String := "ipc_ref_status_query"
def dataQuery : String := "ipc_ref_data_query"
def releaseInform : String := "ipc_ref_release_inform"

/-- A reference's id as the payload of a query about it. -/
def idPayload (id : Int32) : Bytes := littleEndian id.toUInt32

/-- The first word of a decoded status. -/
def statusOf : Option Bytes → Option Int32
  | some (a :: b :: c :: d :: _) => some (wordOfBytes d c b a).toInt32
  | _ => none

def decodePayload (m : Envelope) (formatter : Formatter) : Act (Option Bytes) := do
  match m.decodePayload formatter with
  | .ok value => return value
  | .error e => throw (.frame e)

def referenceStatus (h : Handle) (timeout : Option Span) : Act Int32 := do
  let message ← requireMessage statusQuery
  let r ← reference h
  let answer ← query { message := statusQuery, payload := some (idPayload r.id) } timeout
  match statusOf (← decodePayload answer (message.responseFormat.getD .int32Array)) with
  | some status => return status
  | none => throw .nullReply

def referenceData (h : Handle) (timeout : Option Span) : Act Bytes := do
  let _ ← requireMessage dataQuery
  let message ← resolveMessage h
  match message.messageFormat with
  | none => throw (.noFormat message.name)
  | some format =>
    let r ← reference h
    let answer ← query { message := dataQuery, payload := some (idPayload r.id) } timeout
    match ← decodePayload answer format with
    | some value => return value
    | none => throw .nullReply

/-- Tells the router that an exchange is over, if it knows such a message, and frees the reference
whether or not the router could be told. -/
def releaseReference (h : Handle) : Act Unit := do
  let r ← reference h
  if ((← get).message? releaseInform).isSome then
    try let _ ← sendMessage { message := releaseInform, payload := some (idPayload r.id) }
    catch _ => pure ()
  freeReference h

end ModuleLink.ModuleContext
