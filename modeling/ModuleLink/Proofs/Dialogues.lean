import Mathlib.Tactic.Common
import ModuleLink.Proofs.ChannelEnds
import ModuleLink.Proofs.QueryReplies

/-! # Two modules, one asking and one answering

The asker's router connection and the answerer's desk are the two ends of one channel. The asker
sends queries and waits for their replies, the answerer receives the queries, adopts and answers
them and says other things in between, all in any order. What is sent at one end has arrived at the
other one before anything else happens; a wait that blocks until its reply has come is one that
begins after it. -/
namespace ModuleLink

/-- A query that was adopted, the handle that it is answered through and the message that it is
taken for. -/
structure Exchange where
  handle : Handle
  query : Envelope
  message : Message

def Exchange.ref (e : Exchange) : Int32 := e.query.messageRef

structure Answer where
  exchange : Exchange
  data : Bytes
  sent : Bytes

/-- A call that leaves a reference open, and leaves alone what it says of its query. -/
def TableCall.Spares (h : Handle) : TableCall Reference → Prop
  | acquire _ | get _ => True
  | modify g edit =>
    g = h → ∀ r, (edit r).id = r.id ∧ (edit r).message = r.message ∧ (edit r).replyTo = r.replyTo
  | release g => g ≠ h

namespace ModuleContext

/-- The other end of a connection takes what was written on it. -/
def handOver (x : ModuleContext) (id : ConnectionId) : Bytes × ModuleContext :=
  match x.connection? id with
  | some c => (c.peerTakes.1, x.setConnection id c.peerTakes.2)
  | none => ([], x)

theorem handOver_references (x : ModuleContext) (id : ConnectionId)
    (references : ReferenceTable Reference) :
    { x with references }.handOver id =
      ((x.handOver id).1, { (x.handOver id).2 with references }) := by
  unfold handOver
  show (match x.connection? id with | some c => _ | none => _) = _
  cases x.connection? id <;> rfl

def takeIn (x : ModuleContext) (id : ConnectionId) (bytes : Bytes) : ModuleContext :=
  match x.connection? id with
  | some c => x.setConnection id (c.peerWrites bytes).2
  | none => x

def hear (x : ModuleContext) (id : ConnectionId) : Option Envelope × ModuleContext :=
  match x.connection? id with
  | some c =>
    ((c.receive x.settings.limits).1.toOption, x.setConnection id (c.receive x.settings.limits).2)
  | none => (none, x)

/-- A connection works, and these bytes have arrived on it. -/
def Offers (x : ModuleContext) (id : ConnectionId) (bytes : Bytes) : Prop :=
  ∃ c, x.connection? id = some c ∧ c.Works ∧ c.incoming.unread = bytes

variable {x y : ModuleContext} {id : ConnectionId} {bytes : Bytes} {m : Envelope} {b : Mail}

theorem Offers.setConnection {more : Bytes} {d : Connection} (h : x.Offers id bytes)
    (works : d.Works) (unread : d.incoming.unread = more) : (x.setConnection id d).Offers id more := by
  obtain ⟨c, hc, -⟩ := h
  exact ⟨d, connection?_setConnection_self hc d, works, unread⟩

theorem Offers.sendOn (h : x.Offers id bytes) (sized : m.Sized) :
    ∃ c d connections, x.connection? id = some c ∧ c.send m = (.ok (), d) ∧
      (sendOn id m).run x = (.ok (), x.setConnection id d) ∧
      (x.setConnection id d).handOver id = (m.wire, { x with connections }) ∧
      { x with connections }.Offers id bytes := by
  have ⟨c, hc, works, unread⟩ := h
  obtain ⟨d, sent, wire, works', incoming⟩ := works.send sized
  refine ⟨c, d, (x.setConnection id d.peerTakes.2).connections, hc, sent, ?_, ?_, ?_⟩
  · rw [run_sendOn_of_some hc, sent]
    rfl
  · simp only [handOver, connection?_setConnection_self hc, wire]
    simp only [ModuleContext.setConnection, List.set_set]
  · exact h.setConnection works' (by rw [incoming, unread])

theorem Offers.takeIn (h : x.Offers id bytes) (more : Bytes) :
    ∃ connections, x.takeIn id more = { x with connections } ∧
      { x with connections }.Offers id (bytes ++ more) := by
  have ⟨c, hc, works, unread⟩ := h
  obtain ⟨works', arrived⟩ := works.arrives more
  refine ⟨(x.setConnection id (c.peerWrites more).2).connections, ?_, ?_⟩
  · simp only [ModuleContext.takeIn, hc]
    rfl
  · exact h.setConnection works' (by rw [arrived, unread])

theorem Offers.hear {ms : List Envelope} (h : x.Offers id ((m :: ms).flatMap Envelope.wire))
    (acceptable : m.Acceptable x.settings.limits) :
    ∃ connections, x.hear id = (some m, { x with connections }) ∧
      { x with connections }.Offers id (ms.flatMap Envelope.wire) := by
  have ⟨c, hc, works, unread⟩ := h
  obtain ⟨d, got, works', left⟩ := works.receive acceptable unread
  refine ⟨(x.setConnection id d).connections, ?_, h.setConnection works' left⟩
  simp only [ModuleContext.hear, hc, got]
  rfl

/-- A wait with some time finds a working router connection ready. -/
theorem Offers.canRead (h : x.Offers id bytes) (routed : x.router = some id)
    {timeout : Option Span} (some_time : timeout ≠ some .zero) : x.canRead id timeout := by
  obtain ⟨c, hc, works, -⟩ := h
  refine ⟨c, ?_, works.goesOn⟩
  simp only [admission, routed, Option.bind_some, hc, if_neg some_time]
  simp only [Connection.tryReader, Connection.ensureOpen, works.isOpen, works.free, if_true]
  rfl

theorem Holds.of_offers {rest : List Envelope} (h : x.Holds id b)
    (offers : y.Offers id (rest.flatMap Envelope.wire))
    (acceptable : ∀ m ∈ rest, m.Acceptable y.settings.limits)
    (pending : y.pendingReplies = x.pendingReplies) (inbound : y.inbound = x.inbound)
    (router : y.router = x.router) : y.Holds id { b with unread := rest } := by
  obtain ⟨c, hc, -, unread⟩ := offers
  refine ⟨⟨c, hc, unread⟩, acceptable, pending.trans h.pending, h.replies, inbound.trans h.inbound, ?_⟩
  rw [router]
  exact h.router

end ModuleContext

structure Dialogue where
  asker : ModuleContext
  /-- The router connection of the asker. -/
  line : ConnectionId
  answerer : ModuleContext
  desk : ConnectionId
  /-- The message references that queries were sent under, and the bytes that were sent. -/
  asked : List (Int32 × Bytes) := []
  heard : List Envelope := []
  /-- The adopted queries that nobody answered through their handles. -/
  exchanges : List Exchange := []
  answers : List Answer := []
  /-- The message references whose replies were had. -/
  fetched : List Int32 := []

namespace Dialogue

inductive Move
  | asks (q : SendRequest)
  | hears
  | adopts (query : Envelope) (name : String)
  | answers (e : Exchange) (data : Bytes)
  | remarks (m : Envelope)
  /-- The answerer uses its references otherwise. -/
  | tends (c : TableCall Reference)
  | waits (messageRef : Int32) (timeout : Option Span) (buffer : Option ReplyBuffer)

open ModuleContext

def gotReply : Except PeerError Envelope → Bool
  | .ok _ | .error .nullReply => true
  | .error _ => false

theorem gotReply_finishReply (m : Envelope) : gotReply (finishReply m) = true := by
  unfold finishReply
  split <;> rfl

theorem gotReply_error {e : PeerError} (he : e ≠ .nullReply) : gotReply (.error e) = false := by
  unfold gotReply
  split
  · contradiction
  · rename_i same
    exact absurd (Except.error.inj same) he
  · rfl

def move (d : Dialogue) : Move → Dialogue
  | .asks q =>
    let out := (sendMessage q).run d.asker
    let (sent, asker) := out.2.handOver d.line
    { d with
      asker
      answerer := d.answerer.takeIn d.desk sent
      asked := d.asked ++ (out.1.toOption.map (·, sent)).toList }
  | .hears =>
    { d with
      answerer := (d.answerer.hear d.desk).2
      heard := d.heard ++ (d.answerer.hear d.desk).1.toList }
  | .adopts query name =>
    let (handle, answerer) := d.answerer.adoptQuery query d.desk name
    let adopted := (d.answerer.message? name).map (Exchange.mk handle query)
    { d with answerer, exchanges := d.exchanges ++ adopted.toList }
  | .answers e data =>
    let out := (reply e.handle data).run d.answerer
    let (sent, answerer) := out.2.handOver d.desk
    { d with
      asker := d.asker.takeIn d.line sent
      answerer
      exchanges := d.exchanges.filter (·.handle ≠ e.handle)
      answers := d.answers ++ (out.1.toOption.map fun _ => Answer.mk e data sent).toList }
  | .remarks m =>
    let (sent, answerer) := ((sendOn d.desk m).run d.answerer).2.handOver d.desk
    { d with asker := d.asker.takeIn d.line sent, answerer }
  | .tends c =>
    { d with answerer := { d.answerer with references := (d.answerer.references.call c).2 } }
  | .waits messageRef timeout buffer =>
    let out := d.asker.waitInto messageRef timeout buffer
    { d with
      asker := out.2
      fetched := if gotReply out.1.result then d.fetched ++ [messageRef] else d.fetched }

def moveAll (d : Dialogue) (run : List Move) : Dialogue := run.foldl move d

/-- Queries are for messages that the asker knows and does not deliver directly, and there are fewer
than there are message references. They are adopted once they were heard, for messages that are
answered directly, and answered once. Other traffic answers nothing, and other calls on the
references spare those of open exchanges. All that is sent can be encoded, and its receiver's limits
allow it. -/
def Fair (d : Dialogue) : Move → Prop
  | .asks q =>
    ∃ message ∈ d.asker.message? q.message, ∃ dispatch ∈ (d.asker.dispatchRef q).toOption,
      ∃ m ∈ (d.asker.draft message q dispatch (d.asker.takeRef q).1).build.toOption,
        message.deliversDirectly = false ∧ q.messageRef = none ∧ d.asked.length < 2147483647 ∧
          (m.withIntent message.id).Acceptable d.answerer.settings.limits
  | .hears => d.heard.length < d.asked.length
  | .adopts query name =>
    query ∈ d.heard ∧ ∃ message ∈ d.answerer.message? name, message.AnswersDirectly
  | .answers e data =>
    e ∈ d.exchanges ∧ (∀ a ∈ d.answers, a.exchange.query ≠ e.query) ∧
      ∃ m ∈ (d.answerer.replyDraft e.message e.ref data).build.toOption,
        m.Acceptable d.asker.settings.limits
  | .remarks m => m.intent ≠ queryReplyIntent ∧ m.Acceptable d.asker.settings.limits
  | .tends c => ∀ e ∈ d.exchanges, c.Spares e.handle
  | .waits .. => True

def FairAll (d : Dialogue) : List Move → Prop
  | [] => True
  | a :: run => d.Fair a ∧ (d.move a).FairAll run

/-- Nothing was said yet on a channel that works, and no message reference was taken. -/
structure Opening (d : Dialogue) : Prop where
  line : d.asker.Offers d.line []
  routed : d.asker.router = some d.line
  unnumbered : d.asker.nextSendRef = 0
  nothingKept : d.asker.pendingReplies = []
  desk : d.answerer.Offers d.desk []
  listed : d.desk ∈ d.answerer.table
  history : ∃ past, TableHistory past d.answerer.references
  asked : d.asked = []
  heard : d.heard = []
  exchanges : d.exchanges = []
  answers : d.answers = []
  fetched : d.fetched = []

structure Tally where
  asked : Nat := 0
  heard : Nat := 0
  answered : List (Exchange × Bytes) := []

def tally (d : Dialogue) : Tally :=
  ⟨d.asked.length, d.heard.length, d.answers.map fun a => (a.exchange, a.data)⟩

namespace Tally

def count (t : Tally) : Move → Tally
  | .asks _ => { t with asked := t.asked + 1 }
  | .hears => { t with heard := t.heard + 1 }
  | .answers e data => { t with answered := t.answered ++ [(e, data)] }
  | .adopts .. | .remarks _ | .tends _ | .waits .. => t

end Tally

end Dialogue

end ModuleLink
