import Mathlib.Data.List.Nodup
import ModuleLink.Proofs.DeliverySteps
import ModuleLink.Proofs.Dialogues

/-! # Queries and replies match

Three accounts are kept of a dialogue: what the asker has sent, what the answerer has heard and
which exchanges are open, and which answers are still in the asker's mail. Every fair move carries
them on, and together they say which reply a wait gets. -/
namespace ModuleLink

/-- An answer went out as an envelope: a reply under the reference of its query, whose payload is the
data in the response format. -/
structure Answer.Carries (a : Answer) (limits : Limits) (m : Envelope) : Prop where
  sent : a.sent = m.wire
  acceptable : m.Acceptable limits
  reply : isReplyTo a.exchange.ref m
  encoded : a.exchange.message.replyFormat.encode a.data = .ok m.payload
  decoded : m.payload ≠ [] → m.decodePayload a.exchange.message.replyFormat = .ok (some a.data)

structure Exchange.Stands (e : Exchange) (past : List (TableStep Reference)) (desk : ConnectionId) :
    Prop where
  direct : e.message.AnswersDirectly
  opens : ∃ r, Opens past e.handle r ∧ r.id = e.ref ∧ r.message = some e.message ∧
    r.replyTo = some desk

theorem Exchange.Stands.step {e : Exchange} {past : List (TableStep Reference)} {desk : ConnectionId}
    {c : TableCall Reference} {s : TableStep Reference} (h : e.Stands past desk)
    (answer : Answered past c s) (spared : c.Spares e.handle) : e.Stands (past ++ [s]) desk := by
  obtain ⟨r, opens, ref, message, replyTo⟩ := h.opens
  have kept : ∀ r, s ≠ .released e.handle r := by
    rintro r rfl
    cases answer with
    | released => exact spared rfl
  refine ⟨h.direct, _, opens.step answer kept, ?_⟩
  cases answer with
  | acquired | got | released | refused => exact ⟨ref, message, replyTo⟩
  | @modified g _ edit opens' =>
    simp only [TableStep.edited]
    split
    · rename_i index
      obtain ⟨sameRef, sameMessage, sameOrigin⟩ := spared (opens'.handle_eq opens index) r
      exact ⟨sameRef.trans ref, sameMessage.trans message, sameOrigin.trans replyTo⟩
    · exact ⟨ref, message, replyTo⟩

namespace Dialogue

open ModuleContext

/-- Every answered query has its own message reference and its own answer. Until this answer is had,
a wait for the query gets it; a wait for anything else gets no reply. -/
structure Matches (d : Dialogue) : Prop where
  distinct : (d.asked.map Prod.fst).Nodup
  heard : ∃ queries : List Envelope, d.asked = queries.map (fun m => (m.messageRef, m.wire)) ∧
    d.heard <+: queries
  answersHeard : ∀ a ∈ d.answers, a.exchange.query ∈ d.heard
  once : (d.answers.map (·.exchange.ref)).Nodup
  answered : ∀ a ∈ d.answers, a.exchange.ref ∉ d.fetched →
    ∃ m, a.Carries d.asker.settings.limits m ∧ ∀ timeout buffer, timeout ≠ some .zero →
      (d.asker.waitInto a.exchange.ref timeout buffer).1.result =
        if m.payload = [] then .error .nullReply else .ok m
  unanswered : ∀ r, (r ∈ d.fetched ∨ ∀ a ∈ d.answers, a.exchange.ref ≠ r) →
    ∀ timeout buffer, gotReply (d.asker.waitInto r timeout buffer).1.result = false

structure Asks (d : Dialogue) (queries : List Envelope) : Prop where
  routed : d.asker.router = some d.line
  asked : d.asked = queries.map fun m => (m.messageRef, m.wire)
  counted : d.asker.nextSendRef.toInt = queries.length
  numbered : ∀ m ∈ queries, m.messageRef.toInt ≤ queries.length
  distinct : (queries.map Envelope.messageRef).Nodup

structure Attends (d : Dialogue) (queries : List Envelope) (past : List (TableStep Reference)) :
    Prop where
  desk : d.answerer.Offers d.desk ((queries.drop d.heard.length).flatMap Envelope.wire)
  listed : d.desk ∈ d.answerer.table
  acceptable : ∀ m ∈ queries, m.Acceptable d.answerer.settings.limits
  heard : d.heard <+: queries
  records : d.answerer.references.Records past
  stands : ∀ e ∈ d.exchanges, e.query ∈ d.heard ∧ e.Stands past d.desk
  apart : (d.exchanges.map Exchange.handle).Nodup

structure Posts (d : Dialogue) (replies : List (Answer × Envelope)) (mail : Mail) : Prop where
  line : d.asker.Offers d.line (mail.unread.flatMap Envelope.wire)
  holds : d.asker.Holds d.line mail
  answers : d.answers = replies.map Prod.fst
  carried : ∀ p ∈ replies, p.1.Carries d.asker.settings.limits p.2
  heard : ∀ p ∈ replies, p.1.exchange.query ∈ d.heard
  once : (replies.map (·.1.exchange.ref)).Nodup
  mailed : ∀ r, r ∉ d.fetched →
    (mail.pending ++ mail.unread).filter (isReplyTo r) =
      (replies.map Prod.snd).filter (isReplyTo r)
  fetched : ∀ r ∈ d.fetched, (mail.pending ++ mail.unread).filter (isReplyTo r) = [] ∧
    r ∈ replies.map (·.1.exchange.ref)

variable {d : Dialogue} {queries : List Envelope} {past : List (TableStep Reference)}
  {replies : List (Answer × Envelope)} {mail : Mail}

theorem toInt_takeSendRef {x : ModuleContext} {n : Nat} (h : x.nextSendRef.toInt = n)
    (few : n < 2147483647) :
    x.takeSendRef.1.toInt = n + 1 ∧
      x.takeSendRef.2 = { x with nextSendRef := x.takeSendRef.1 } := by
  have below : x.nextSendRef ≠ 2147483647 := by
    intro e
    rw [e] at h
    have last : (2147483647 : Int32).toInt = 2147483647 := by decide
    omega
  refine ⟨?_, rfl⟩
  simp only [takeSendRef]
  rw [if_neg below, Int32.toInt_add, h, Int32.toInt_one]
  rw [Int.bmod_eq_of_le] <;> omega

/-- A query goes out whole under the next message reference. -/
theorem move_asks {q : SendRequest} (asks : d.Asks queries) {bytes more : Bytes}
    (line : d.asker.Offers d.line bytes) (desk : d.answerer.Offers d.desk more)
    (fair : d.Fair (.asks q)) :
    ∃ (m : Envelope) (connections connections' : List Connection),
      m.messageRef.toInt = queries.length + 1 ∧ m.Acceptable d.answerer.settings.limits ∧
      { d.asker with connections }.Offers d.line bytes ∧
      { d.answerer with connections := connections' }.Offers d.desk (more ++ m.wire) ∧
      d.move (.asks q) = { d with
        asker := { d.asker with nextSendRef := m.messageRef, connections }
        answerer := { d.answerer with connections := connections' }
        asked := d.asked ++ [(m.messageRef, m.wire)] } := by
  obtain ⟨message, named, dispatch, referred, m, built, undirected, unnumbered, few, acceptable⟩ :=
    fair
  rw [mem_toOption_iff] at referred built
  have ref : m.messageRef = (d.asker.takeRef q).1 := Draft.build_messageRef built
  have prepared := prepareMessage_of_build asks.routed named referred built
  have taken : d.asker.takeRef q = d.asker.takeSendRef := by
    simp only [takeRef, unnumbered]
  rw [asks.asked, List.length_map] at few
  obtain ⟨next, advanced⟩ := toInt_takeSendRef asks.counted few
  rw [taken] at ref prepared
  rw [advanced, ← ref] at prepared
  have line' : { d.asker with nextSendRef := m.messageRef }.Offers d.line bytes := line
  obtain ⟨-, c, connections, -, -, sent, handed, line''⟩ := line'.sendOn acceptable.toSized
  obtain ⟨connections', arrived, desk'⟩ := desk.takeIn (m.withIntent message.id).wire
  have run : (sendMessage q).run d.asker =
      (.ok m.messageRef,
        ({ d.asker with nextSendRef := m.messageRef } : ModuleContext).setConnection d.line c) := by
    rw [run_sendMessage, prepared]
    simp only [undirected, Bool.false_eq_true, if_false]
    rw [sent]
  refine ⟨m.withIntent message.id, connections, connections', ?_, acceptable, line'', desk', ?_⟩
  · exact ref ▸ next
  · simp only [move, run, handed, arrived]
    rfl

theorem move_hears (attends : d.Attends queries past) (fair : d.heard.length < queries.length) :
    ∃ (m : Envelope) (connections : List Connection), d.heard ++ [m] <+: queries ∧
      { d.answerer with connections }.Offers d.desk
        ((queries.drop (d.heard ++ [m]).length).flatMap Envelope.wire) ∧
      d.move .hears = { d with
        answerer := { d.answerer with connections }, heard := d.heard ++ [m] } := by
  obtain ⟨rest, split⟩ := attends.heard
  cases rest with
  | nil => simp [← split] at fair
  | cons m rest =>
    have next : queries.drop d.heard.length = m :: rest := by simp [← split]
    have later : queries.drop (d.heard ++ [m]).length = rest := by simp [← split]
    obtain ⟨connections, got, desk⟩ :=
      (next ▸ attends.desk).hear (attends.acceptable m (by simp [← split]))
    refine ⟨m, connections, ⟨rest, by simpa using split⟩, later.symm ▸ desk, ?_⟩
    simp only [move, got]
    rfl

theorem move_adopts (query : Envelope) {name : String} {message : Message}
    (named : d.answerer.message? name = some message) :
    ∃ (r : Reference) (h : Handle) (references : ReferenceTable Reference),
      r.id = query.messageRef ∧ r.message = some message ∧ r.replyTo = some d.desk ∧
      d.answerer.references.call (.acquire r) = (.acquired r h, references) ∧
      d.move (.adopts query name) = { d with
        answerer := { d.answerer with references }
        exchanges := d.exchanges ++ [⟨h, query, message⟩] } := by
  let r : Reference := {
    id := query.messageRef
    message := d.answerer.message? name
    name := some name
    replyTo := some d.desk
    response := if d.answerer.settings.detachedResponses then .detached else .pending }
  refine ⟨r, _, _, rfl, named, rfl, rfl, ?_⟩
  simp only [move, named]
  rfl

/-- An answer goes out whole, and the other references stand. -/
theorem move_answers {e : Exchange} {data bytes more : Bytes}
    (attends : d.Attends queries past) (line : d.asker.Offers d.line bytes)
    (desk : d.answerer.Offers d.desk more) (fair : d.Fair (.answers e data)) :
    ∃ (m : Envelope) (c : TableCall Reference) (connections connections' : List Connection),
      Answer.Carries ⟨e, data, m.wire⟩ d.asker.settings.limits m ∧
      (∀ h, h ≠ e.handle → c.Spares h) ∧
      { d.asker with connections }.Offers d.line (bytes ++ m.wire) ∧
      { d.answerer with connections := connections' }.Offers d.desk more ∧
      d.move (.answers e data) = { d with
        asker := { d.asker with connections }
        answerer := { d.answerer with
          connections := connections', references := (d.answerer.references.call c).2 }
        exchanges := d.exchanges.filter (·.handle ≠ e.handle)
        answers := d.answers ++ [⟨e, data, m.wire⟩] } := by
  obtain ⟨hm, -, m, built, acceptable⟩ := fair
  rw [mem_toOption_iff] at built
  obtain ⟨-, direct, r, opens, ref, bound, origin⟩ := attends.stands e hm
  have got := (attends.records.get_eq_ok_iff e.handle r).mpr opens
  obtain ⟨c, c', connections', hc, sent, -, handed, desk'⟩ := desk.sendOn acceptable.toSized
  obtain ⟨connections, arrived, line'⟩ := line.takeIn m.wire
  have run := run_reply got bound direct.direct origin attends.listed (ref.symm ▸ built) hc sent
  refine ⟨m, settling e.handle r, connections, connections', ?_, ?_, line', desk', ?_⟩
  · have payload := Envelope.decodePayload_of_build direct.faithful rfl built
    refine ⟨rfl, acceptable, isReplyTo_iff.mpr ⟨?_, ?_⟩, payload.1, payload.2⟩
    · exact Draft.build_intent built
    · exact Draft.build_messageRef built
  · intro h hh
    simp only [settling]
    cases r.response with
    | detached => exact hh.symm
    | pending | responded => exact fun _ _ => ⟨rfl, rfl, rfl⟩
  · simp only [move, run, handOver_references, handed, arrived]
    rfl

theorem move_remarks {m : Envelope} {bytes more : Bytes} (line : d.asker.Offers d.line bytes)
    (desk : d.answerer.Offers d.desk more) (sized : m.Sized) :
    ∃ connections connections' : List Connection,
      { d.asker with connections }.Offers d.line (bytes ++ m.wire) ∧
      { d.answerer with connections := connections' }.Offers d.desk more ∧
      d.move (.remarks m) = { d with
        asker := { d.asker with connections }
        answerer := { d.answerer with connections := connections' } } := by
  obtain ⟨-, c, connections', -, -, sent, handed, desk'⟩ := desk.sendOn sized
  obtain ⟨connections, arrived, line'⟩ := line.takeIn m.wire
  refine ⟨connections, connections', line', desk', ?_⟩
  simp only [move, sent, handed, arrived]

/-- A wait takes from the mail the reply that it gets, and leaves the line working. -/
theorem Posts.waitInto (h : d.Posts replies mail) (messageRef : Int32) (timeout : Option Span)
    (buffer : Option ReplyBuffer) :
    ∃ (found : Option Envelope) (mail' : Mail) (connections : List Connection)
      (pendingReplies : List Envelope) (inbound : List (ConnectionId × Envelope)),
      mail.Waits d.line messageRef found mail' ∧
      gotReply (d.asker.waitInto messageRef timeout buffer).1.result = found.isSome ∧
      (d.asker.waitInto messageRef timeout buffer).2 =
        { d.asker with connections, pendingReplies, inbound } ∧
      { d.asker with connections, pendingReplies, inbound }.Offers d.line
        (mail'.unread.flatMap Envelope.wire) ∧
      { d.asker with connections, pendingReplies, inbound }.Holds d.line mail' := by
  obtain ⟨c, hc, works, -⟩ := h.line
  obtain ⟨whole, connections, pendingReplies, inbound, left, c', hc', works'⟩ :=
    h.holds.waits hc works messageRef timeout buffer
  obtain ⟨outcome, mail', step, answer, held⟩ := h.holds.waitInto messageRef timeout buffer whole
  have offers : (d.asker.waitInto messageRef timeout buffer).2.Offers d.line
      (mail'.unread.flatMap Envelope.wire) := by
    obtain ⟨c'', hc'', unread⟩ := held.unread
    obtain rfl : c' = c'' := Option.some.inj (hc'.symm.trans hc'')
    exact ⟨c', hc', works', unread⟩
  rw [left] at offers held
  cases step with
  | @answered _ _ _ _ m waits =>
    refine ⟨some m, mail', connections, pendingReplies, inbound, waits, ?_, left, offers, held⟩
    rw [RouterAnswer.waited.inj answer]
    exact gotReply_finishReply m
  | @ended _ _ _ _ e waits he =>
    refine ⟨none, mail', connections, pendingReplies, inbound, waits, ?_, left, offers, held⟩
    rw [RouterAnswer.waited.inj answer]
    exact gotReply_error he

/-! What the accounts say of a dialogue, they say of it after each move. -/

/-- The accounts of a dialogue. -/
structure Coherent (d : Dialogue) (queries : List Envelope) (past : List (TableStep Reference))
    (replies : List (Answer × Envelope)) (mail : Mail) : Prop where
  asks : d.Asks queries
  attends : d.Attends queries past
  posts : d.Posts replies mail

/-- Queries are told apart by their message references. -/
theorem Asks.query_eq (h : d.Asks queries) {m n : Envelope} (hm : m ∈ queries) (hn : n ∈ queries)
    (ref : m.messageRef = n.messageRef) : m = n :=
  List.inj_on_of_nodup_map h.distinct hm hn ref

/-- At most one of the answers is for a message reference. -/
theorem Posts.length_filter_le (h : d.Posts replies mail) (r : Int32) :
    ((replies.map Prod.snd).filter (isReplyTo r)).length ≤ 1 := by
  have same : ∀ p ∈ replies, (isReplyTo r ∘ Prod.snd) p ↔ ((· == r) ∘ (·.1.exchange.ref)) p := by
    intro p hp
    have reply := isReplyTo_iff.mp (h.carried p hp).reply
    simp [isReplyTo, reply.1, reply.2]
  rw [← List.countP_eq_length_filter, List.countP_map, List.countP_congr same, ← List.countP_map]
  exact List.nodup_iff_count_le_one.mp h.once r

/-- What arrives on the line is in the asker's mail. -/
theorem Posts.arrives (h : d.Posts replies mail) {m : Envelope} {connections : List Connection}
    (line : { d.asker with connections }.Offers d.line (mail.unread.flatMap Envelope.wire ++ m.wire))
    (acceptable : m.Acceptable d.asker.settings.limits) :
    { d.asker with connections }.Offers d.line ((mail.unread ++ [m]).flatMap Envelope.wire) ∧
      { d.asker with connections }.Holds d.line { mail with unread := mail.unread ++ [m] } := by
  have line' : { d.asker with connections }.Offers d.line
      ((mail.unread ++ [m]).flatMap Envelope.wire) := by
    simpa using line
  refine ⟨line', h.holds.of_offers line' (List.forall_mem_append.mpr ⟨?_, ?_⟩) rfl rfl rfl⟩
  · exact h.holds.acceptable
  · exact List.forall_mem_singleton.mpr acceptable

theorem Coherent.asks_step (h : d.Coherent queries past replies mail) {q : SendRequest}
    (fair : d.Fair (.asks q)) :
    ∃ m, (d.move (.asks q)).Coherent (queries ++ [m]) past replies mail ∧
      (d.move (.asks q)).tally = d.tally.count (.asks q) := by
  obtain ⟨m, connections, connections', next, acceptable, line, desk, moved⟩ :=
    move_asks h.asks h.posts.line h.attends.desk fair
  have fresh : m.messageRef ∉ queries.map Envelope.messageRef := by
    intro hm
    obtain ⟨p, hp, ref⟩ := List.mem_map.mp hm
    have := h.asks.numbered p hp
    rw [ref, next] at this
    omega
  refine ⟨m, ?_⟩
  rw [moved]
  refine ⟨⟨{ h.asks with asked := ?_, counted := ?_, numbered := ?_, distinct := ?_ },
    { h.attends with desk := ?_, acceptable := ?_, heard := ?_ },
    { h.posts with line, holds := ?_ }⟩, ?_⟩
  · simp [h.asks.asked]
  · simp [next]
  · intro p hp
    rw [List.length_append, List.length_singleton]
    rcases List.mem_append.mp hp with hp | hp
    · have := h.asks.numbered p hp
      omega
    · rw [List.mem_singleton.mp hp, next]
      omega
  · simpa using h.asks.distinct.concat fresh
  · rw [List.drop_append_of_le_length h.attends.heard.length_le]
    simpa using desk
  · exact List.forall_mem_append.mpr
      ⟨h.attends.acceptable, List.forall_mem_singleton.mpr acceptable⟩
  · exact h.attends.heard.trans (List.prefix_append _ _)
  · exact h.posts.holds.of_offers line h.posts.holds.acceptable rfl rfl rfl
  · simp [tally, Tally.count]

theorem Coherent.hears_step (h : d.Coherent queries past replies mail) (fair : d.Fair .hears) :
    (d.move .hears).Coherent queries past replies mail ∧
      (d.move .hears).tally = d.tally.count .hears := by
  have more : d.heard.length < queries.length := by
    simpa only [Fair, h.asks.asked, List.length_map] using fair
  obtain ⟨m, connections, heard, desk, moved⟩ := move_hears h.attends more
  rw [moved]
  refine ⟨⟨{ h.asks with }, { h.attends with desk, heard, stands := ?_ },
    { h.posts with heard := ?_ }⟩, ?_⟩
  · intro e he
    obtain ⟨query, stands⟩ := h.attends.stands e he
    exact ⟨List.mem_append_left _ query, stands⟩
  · intro p hp
    exact List.mem_append_left _ (h.posts.heard p hp)
  · simp [tally, Tally.count]

theorem Coherent.adopts_step (h : d.Coherent queries past replies mail) {query : Envelope}
    {name : String} (fair : d.Fair (.adopts query name)) :
    ∃ past', (d.move (.adopts query name)).Coherent queries past' replies mail ∧
      (d.move (.adopts query name)).tally = d.tally.count (.adopts query name) := by
  obtain ⟨heard, message, named, direct⟩ := fair
  obtain ⟨r, g, references, ref, bound, origin, called, moved⟩ := move_adopts query named
  obtain ⟨answer, records, -⟩ := h.attends.records.call (.acquire r)
  rw [called] at answer records
  have fresh : g ∉ d.exchanges.map Exchange.handle := by
    intro hg
    obtain ⟨e, he, rfl⟩ := List.mem_map.mp hg
    obtain ⟨-, -, held, opens, -⟩ := h.attends.stands e he
    cases answer with
    | acquired _ vacant _ => exact absurd (vacant.symm.trans opens.1) nofun
  refine ⟨past ++ [.acquired r g], ?_⟩
  rw [moved]
  refine ⟨⟨{ h.asks with }, { h.attends with records, stands := ?_, apart := ?_ },
    { h.posts with }⟩, rfl⟩
  · intro e he
    rcases List.mem_append.mp he with he | he
    · obtain ⟨query, stands⟩ := h.attends.stands e he
      exact ⟨query, stands.step answer trivial⟩
    · obtain rfl := List.mem_singleton.mp he
      cases answer with
      | acquired _ _ generation =>
        exact ⟨heard, direct, r, .acquired r generation, ref, bound, origin⟩
  · simpa using h.attends.apart.concat fresh

theorem Coherent.answers_step (h : d.Coherent queries past replies mail) {e : Exchange} {data : Bytes}
    (fair : d.Fair (.answers e data)) :
    ∃ past' p m, (d.move (.answers e data)).Coherent queries past' (replies ++ [p])
        { mail with unread := mail.unread ++ [m] } ∧
      (d.move (.answers e data)).tally = d.tally.count (.answers e data) := by
  obtain ⟨m, c, connections, connections', carries, spares, line, desk, moved⟩ :=
    move_answers h.attends h.posts.line h.attends.desk fair
  obtain ⟨answer, records, -⟩ := h.attends.records.call c
  obtain ⟨he, first, -⟩ := fair
  obtain ⟨query, -⟩ := h.attends.stands e he
  have fresh : e.ref ∉ replies.map (·.1.exchange.ref) := by
    intro hr
    obtain ⟨p, hp, ref⟩ := List.mem_map.mp hr
    have mine := h.attends.heard.subset query
    have other := h.attends.heard.subset (h.posts.heard p hp)
    refine first p.1 ?_ (h.asks.query_eq other mine ref)
    rw [h.posts.answers]
    exact List.mem_map_of_mem hp
  obtain ⟨line, holds⟩ := h.posts.arrives line carries.acceptable
  refine ⟨past ++ [(d.answerer.references.call c).1], (⟨e, data, m.wire⟩, m), m, ?_⟩
  rw [moved]
  refine ⟨⟨{ h.asks with }, { h.attends with desk, records, stands := ?_, apart := ?_ },
    { line, holds, answers := ?_, carried := ?_, heard := ?_, once := ?_,
      mailed := ?_, fetched := ?_ }⟩, ?_⟩
  · intro f hf
    obtain ⟨hf, other⟩ := List.mem_filter.mp hf
    obtain ⟨query, stands⟩ := h.attends.stands f hf
    exact ⟨query, stands.step answer (spares f.handle (of_decide_eq_true other))⟩
  · exact h.attends.apart.sublist (List.filter_sublist.map _)
  · simp [h.posts.answers]
  · exact List.forall_mem_append.mpr ⟨h.posts.carried, List.forall_mem_singleton.mpr carries⟩
  · exact List.forall_mem_append.mpr ⟨h.posts.heard, List.forall_mem_singleton.mpr query⟩
  · simpa using h.posts.once.concat fresh
  · intro r hr
    rw [← List.append_assoc, List.filter_append, h.posts.mailed r hr, List.map_append,
      List.filter_append]
    rfl
  · intro r hr
    obtain ⟨gone, answered⟩ := h.posts.fetched r hr
    have other := isReplyTo_of_ne carries.reply fun same => fresh (same ▸ answered)
    refine ⟨?_, ?_⟩
    · rw [← List.append_assoc, List.filter_append, gone]
      simp [other]
    · rw [List.map_append]
      exact List.mem_append_left _ answered
  · simp [tally, Tally.count]

theorem Coherent.remarks_step (h : d.Coherent queries past replies mail) {m : Envelope}
    (fair : d.Fair (.remarks m)) :
    (d.move (.remarks m)).Coherent queries past replies
        { mail with unread := mail.unread ++ [m] } ∧
      (d.move (.remarks m)).tally = d.tally.count (.remarks m) := by
  obtain ⟨intent, acceptable⟩ := fair
  obtain ⟨connections, connections', line, desk, moved⟩ :=
    move_remarks h.posts.line h.attends.desk acceptable.toSized
  have nobody : ∀ r, (mail.pending ++ (mail.unread ++ [m])).filter (isReplyTo r) =
      (mail.pending ++ mail.unread).filter (isReplyTo r) := by
    intro r
    have other : isReplyTo r m = false := by simp [isReplyTo, intent]
    rw [← List.append_assoc, List.filter_append]
    simp [other]
  obtain ⟨line, holds⟩ := h.posts.arrives line acceptable
  rw [moved]
  refine ⟨⟨{ h.asks with }, { h.attends with desk },
    { h.posts with line, holds, mailed := ?_, fetched := ?_ }⟩, rfl⟩
  · intro r hr
    exact (nobody r).trans (h.posts.mailed r hr)
  · intro r hr
    obtain ⟨gone, answered⟩ := h.posts.fetched r hr
    exact ⟨(nobody r).trans gone, answered⟩

theorem Coherent.tends_step (h : d.Coherent queries past replies mail) {c : TableCall Reference}
    (fair : d.Fair (.tends c)) :
    ∃ past', (d.move (.tends c)).Coherent queries past' replies mail ∧
      (d.move (.tends c)).tally = d.tally.count (.tends c) := by
  obtain ⟨answer, records, -⟩ := h.attends.records.call c
  refine ⟨_, ⟨{ h.asks with }, { h.attends with records, stands := ?_ }, { h.posts with }⟩, rfl⟩
  intro e he
  obtain ⟨query, stands⟩ := h.attends.stands e he
  exact ⟨query, stands.step answer (fair e he)⟩

/-- The reply that a wait takes is the one answer under its reference, and no other is left. -/
theorem Posts.taken (h : d.Posts replies mail) {messageRef : Int32} {m : Envelope} {mail' : Mail}
    (waits : mail.Waits d.line messageRef (some m) mail') :
    (mail'.pending ++ mail'.unread).filter (isReplyTo messageRef) = [] ∧
      messageRef ∈ replies.map (·.1.exchange.ref) := by
  have reply := waits.reply
  have kept : (mail.pending ++ mail.unread).filter (isReplyTo messageRef) =
      m :: (mail'.pending ++ mail'.unread).filter (isReplyTo messageRef) := by
    simpa only [Option.toList_some, List.singleton_append, List.filter_cons_of_pos reply]
      using waits.filter_isReplyTo messageRef
  have waiting : messageRef ∉ d.fetched := by
    intro hr
    rw [(h.fetched messageRef hr).1] at kept
    cases kept
  rw [h.mailed messageRef waiting] at kept
  have one := h.length_filter_le messageRef
  rw [kept, List.length_cons] at one
  refine ⟨List.eq_nil_of_length_eq_zero (by omega), ?_⟩
  have posted : m ∈ (replies.map Prod.snd).filter (isReplyTo messageRef) := kept ▸ List.mem_cons_self
  obtain ⟨p, hp, rfl⟩ := List.mem_map.mp (List.mem_filter.mp posted).1
  have ref := (isReplyTo_iff.mp (h.carried p hp).reply).2
  exact List.mem_map.mpr ⟨p, hp, ref.symm.trans (isReplyTo_iff.mp reply).2⟩

theorem Coherent.waits_step (h : d.Coherent queries past replies mail) (messageRef : Int32)
    (timeout : Option Span) (buffer : Option ReplyBuffer) :
    ∃ mail', (d.move (.waits messageRef timeout buffer)).Coherent queries past replies mail' ∧
      (d.move (.waits messageRef timeout buffer)).tally =
        d.tally.count (.waits messageRef timeout buffer) := by
  obtain ⟨found, mail', connections, pendingReplies, inbound, waits, got, left, line, holds⟩ :=
    h.posts.waitInto messageRef timeout buffer
  have kept := waits.filter_isReplyTo
  refine ⟨mail', ?_⟩
  simp only [move, left, got]
  cases found with
  | none =>
    refine ⟨⟨{ h.asks with }, { h.attends with },
      { h.posts with line, holds, mailed := ?_, fetched := ?_ }⟩, rfl⟩
    · intro r hr
      exact (kept r).symm.trans (h.posts.mailed r hr)
    · intro r hr
      obtain ⟨gone, answered⟩ := h.posts.fetched r hr
      exact ⟨(kept r).symm.trans gone, answered⟩
  | some m =>
    obtain ⟨gone, answered⟩ := h.posts.taken waits
    refine ⟨⟨{ h.asks with }, { h.attends with },
      { h.posts with line, holds, mailed := ?_, fetched := ?_ }⟩, rfl⟩
    · intro r hr
      obtain ⟨waiting, other⟩ := not_or.mp (mt List.mem_append.mpr hr)
      have passed := isReplyTo_of_ne waits.reply fun same => other (List.mem_singleton.mpr same.symm)
      rw [← h.posts.mailed r waiting, kept r]
      simp [passed]
    · intro r hr
      rcases List.mem_append.mp hr with hr | hr
      · obtain ⟨nothing, before⟩ := h.posts.fetched r hr
        rw [kept r, List.filter_append, List.append_eq_nil_iff] at nothing
        exact ⟨nothing.2, before⟩
      · obtain rfl := List.mem_singleton.mp hr
        exact ⟨gone, answered⟩

/-- Every fair move comes about. -/
theorem Coherent.step (h : d.Coherent queries past replies mail) {a : Move} (fair : d.Fair a) :
    ∃ queries past replies mail, (d.move a).Coherent queries past replies mail ∧
      (d.move a).tally = d.tally.count a := by
  cases a with
  | asks q =>
    obtain ⟨m, kept⟩ := h.asks_step fair
    exact ⟨_, _, _, _, kept⟩
  | hears => exact ⟨_, _, _, _, h.hears_step fair⟩
  | adopts query name =>
    obtain ⟨past', kept⟩ := h.adopts_step fair
    exact ⟨_, _, _, _, kept⟩
  | answers e data =>
    obtain ⟨past', p, m, kept⟩ := h.answers_step fair
    exact ⟨_, _, _, _, kept⟩
  | remarks m => exact ⟨_, _, _, _, h.remarks_step fair⟩
  | tends c =>
    obtain ⟨past', kept⟩ := h.tends_step fair
    exact ⟨_, _, _, _, kept⟩
  | waits messageRef timeout buffer =>
    obtain ⟨mail', kept⟩ := h.waits_step messageRef timeout buffer
    exact ⟨_, _, _, _, kept⟩

theorem Coherent.run (h : d.Coherent queries past replies mail) {run : List Move}
    (fair : d.FairAll run) :
    ∃ queries past replies mail, (d.moveAll run).Coherent queries past replies mail ∧
      (d.moveAll run).tally = run.foldl Tally.count d.tally := by
  induction run generalizing d queries past replies mail with
  | nil => exact ⟨_, _, _, _, h, rfl⟩
  | cons a run ih =>
    obtain ⟨queries', past', replies', mail', held, counted⟩ := h.step fair.1
    obtain ⟨_, _, _, _, held', counted'⟩ := ih held fair.2
    exact ⟨_, _, _, _, held', counted'.trans (by rw [counted]; rfl)⟩

theorem Opening.coherent (h : d.Opening) :
    ∃ past, d.Coherent [] past [] { inbound := d.asker.inbound } := by
  obtain ⟨past, history⟩ := h.history
  have counted : d.asker.nextSendRef.toInt = 0 := by
    rw [h.unnumbered]
    rfl
  have holds : d.asker.Holds d.line { inbound := d.asker.inbound } := by
    obtain ⟨c, hc, -, unread⟩ := h.line
    refine ⟨⟨c, hc, unread⟩, nofun, h.nothingKept, nofun, rfl, fun id hr => ?_⟩
    exact Option.some.inj (hr.symm.trans h.routed)
  refine ⟨past, ⟨h.routed, h.asked, counted, nofun, List.nodup_nil⟩,
    ⟨?_, h.listed, nofun, ?_, history.records, ?_, ?_⟩,
    ⟨h.line, holds, h.answers, ?_, ?_, List.nodup_nil, fun _ _ => rfl, ?_⟩⟩
  · simpa [h.heard] using h.desk
  · simp [h.heard]
  · simp [h.exchanges]
  · simp [h.exchanges]
  · exact fun p hp => absurd hp List.not_mem_nil
  · exact fun p hp => absurd hp List.not_mem_nil
  · simp [h.fetched]

theorem Posts.answered (h : d.Posts replies mail) (routed : d.asker.router = some d.line)
    {a : Answer} (ha : a ∈ d.answers) (waiting : a.exchange.ref ∉ d.fetched) :
    ∃ m, a.Carries d.asker.settings.limits m ∧ ∀ timeout buffer, timeout ≠ some .zero →
      (d.asker.waitInto a.exchange.ref timeout buffer).1.result =
        if m.payload = [] then .error .nullReply else .ok m := by
  rw [h.answers] at ha
  obtain ⟨⟨a, m⟩, hp, rfl⟩ := List.mem_map.mp ha
  have carries := h.carried _ hp
  refine ⟨m, carries, fun timeout buffer some_time => ?_⟩
  have posted : m ∈ (replies.map Prod.snd).filter (isReplyTo a.exchange.ref) :=
    List.mem_filter.mpr ⟨List.mem_map_of_mem hp, carries.reply⟩
  have alone : (replies.map Prod.snd).filter (isReplyTo a.exchange.ref) = [m] := by
    have one := Nat.le_antisymm (h.length_filter_le a.exchange.ref) (List.length_pos_of_mem posted)
    obtain ⟨n, hn⟩ := List.length_eq_one_iff.mp one
    rw [hn] at posted ⊢
    rw [List.mem_singleton.mp posted]
  have found : (mail.pending ++ mail.unread).find? (isReplyTo a.exchange.ref) = some m := by
    rw [← List.head?_filter, h.mailed _ waiting, alone]
    rfl
  rw [h.holds.prompt buffer (h.line.canRead routed some_time) found]
  have payload := carries.acceptable.toSized.hasPayload_iff
  by_cases empty : m.payload = []
  · rw [finishReply, if_neg (mt payload.mp (not_not_intro empty)), if_pos empty]
  · rw [finishReply, if_pos (payload.mpr empty), if_neg empty]

theorem Posts.unanswered (h : d.Posts replies mail) {r : Int32}
    (nothing : r ∈ d.fetched ∨ ∀ a ∈ d.answers, a.exchange.ref ≠ r) (timeout : Option Span)
    (buffer : Option ReplyBuffer) :
    gotReply (d.asker.waitInto r timeout buffer).1.result = false := by
  have gone : (mail.pending ++ mail.unread).filter (isReplyTo r) = [] := by
    by_cases hr : r ∈ d.fetched
    · exact (h.fetched r hr).1
    · rw [h.mailed r hr]
      have others := nothing.resolve_left hr
      refine List.filter_eq_nil_iff.mpr fun m hm reply => ?_
      obtain ⟨p, hp, rfl⟩ := List.mem_map.mp hm
      refine others p.1 (h.answers ▸ List.mem_map_of_mem hp) ?_
      exact (isReplyTo_iff.mp (h.carried p hp).reply).2.symm.trans (isReplyTo_iff.mp reply).2
  obtain ⟨found, mail', -, -, -, waits, got, -⟩ := h.waitInto r timeout buffer
  rw [got]
  cases found with
  | none => rfl
  | some m =>
    have kept := waits.filter_isReplyTo r
    rw [gone, Option.toList_some, List.singleton_append, List.filter_cons_of_pos waits.reply] at kept
    cases kept

/-- In every run of fair moves all queries, receptions and answers come about, and replies and
queries match. -/
theorem matches_after (start : d.Opening) {run : List Move} (fair : d.FairAll run) :
    (d.moveAll run).Matches ∧ (d.moveAll run).tally = run.foldl Tally.count {} := by
  obtain ⟨past, h⟩ := start.coherent
  obtain ⟨queries, past, replies, mail, h, counted⟩ := h.run fair
  generalize d.moveAll run = e at h counted
  have untold : d.tally = {} := by simp [tally, start.asked, start.heard, start.answers]
  refine ⟨⟨?_, ⟨queries, h.asks.asked, h.attends.heard⟩, ?_, ?_, ?_, ?_⟩, untold ▸ counted⟩
  · simpa [h.asks.asked, Function.comp_def] using h.asks.distinct
  · intro a ha
    rw [h.posts.answers] at ha
    obtain ⟨p, hp, rfl⟩ := List.mem_map.mp ha
    exact h.posts.heard p hp
  · simpa [h.posts.answers, Function.comp_def] using h.posts.once
  · exact fun a ha waiting => h.posts.answered h.asks.routed ha waiting
  · exact fun r nothing => h.posts.unanswered nothing

def statusMessage : Message :=
  { name := "status", id := 5, messageClass := .query, responseFormat := some .text, direct := true }

def statusDialogue : Dialogue where
  asker := quiet.registerMessage statusMessage
  line := 0
  answerer := { quiet with router := none }.registerMessage statusMessage
  desk := 0

def statusQuery (messageRef : Int32) : Envelope where
  header := { (Envelope.plain 5 messageRef []).header with
    classifier := (Classifier.outgoing MessageClass.query.id).pack }
  classData := []
  payload := []

def statusExchange (slot : Nat) (messageRef : Int32) : Exchange :=
  ⟨⟨slot, 0⟩, statusQuery messageRef, statusMessage⟩

/-- The second query is answered before the first one, and a remark comes between the answers. -/
def crossedAnswers : List Move := [
  .asks { message := "status" }, .asks { message := "status" }, .hears,
  .adopts (statusQuery 1) "status", .hears, .adopts (statusQuery 2) "status",
  .answers (statusExchange 1 2) [0x6f, 0x6b], .remarks (Envelope.plain 3 noRef [1]),
  .answers (statusExchange 0 1) [], .waits 1 none none]

theorem matches_after_crossedAnswers :
    statusDialogue.Opening ∧ statusDialogue.FairAll crossedAnswers ∧
      (statusDialogue.moveAll crossedAnswers).Matches ∧
      (statusDialogue.moveAll crossedAnswers).tally =
        ⟨2, 2, [(statusExchange 1 2, [0x6f, 0x6b]), (statusExchange 0 1, [])]⟩ := by
  have offers : quiet.Offers 0 [] := ⟨_, rfl, ⟨rfl, rfl, nofun, rfl, ⟨rfl, nofun⟩, rfl⟩, rfl⟩
  have start : statusDialogue.Opening :=
    ⟨offers, rfl, rfl, rfl, offers, by decide, ⟨[], .new⟩, rfl, rfl, rfl, rfl, rfl⟩
  have direct : statusMessage.AnswersDirectly := ⟨rfl, .inr (.inr (.inr rfl))⟩
  have opened : (statusDialogue.moveAll (crossedAnswers.take 6)).exchanges =
    [statusExchange 0 1, statusExchange 1 2] := rfl
  have left : (statusDialogue.moveAll (crossedAnswers.take 8)).exchanges = [statusExchange 0 1] := rfl
  have fair : statusDialogue.FairAll crossedAnswers := by
    refine ⟨?_, ?_, ?_, ⟨?_, _, rfl, direct⟩, ?_, ⟨?_, _, rfl, direct⟩,
      ⟨opened ▸ .tail _ (.head _), ?_⟩, ?_, ⟨left ▸ .head _, ?_⟩, trivial, trivial⟩
    all_goals
      try unfold Fair
      decide +kernel
  exact ⟨start, fair, matches_after start fair⟩

end Dialogue

end ModuleLink
