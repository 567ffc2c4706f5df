import LogBroker.Proofs.Metrics.Counting
import LogBroker.Proofs.Server.Cuts
import LogBroker.Server.Run
import Mathlib.Algebra.BigOperators.Group.Finset.Basic
import Mathlib.Algebra.BigOperators.Group.Finset.Piecewise

/-!
# Connections side by side

A happening touches the connection that it happens on and no other. So a run of the
server, in whatever order happenings on different connections come, is on each connection
the run that the connection has by itself (`Server.run_connections`); and what the server
counts is the sum of what each connection would count by itself (`Server.get_run`).

A connection by itself is a matter of its stream alone, however that is cut
(`LogBroker.Proofs.Server.Cuts`). Together: the bytes sent on a connection are the answers
to the requests in its own stream, and the counters grow by the requests, the failures and
the number of the connections (`Server.run_sessions`).

Nothing is asked of the logs. One whose last offset is the greatest has a next offset that wraps
(`RecordBatch.nextOffset`), and for such logs too this is about a build that checks no overflow.
-/

namespace LogBroker

open Wire Metrics

/-! ## A connection by itself -/

namespace Connection

section

variable (limit : Nat) (answer : RequestMessage → ResponseMessage) (k : Counter)

/-- What a happening makes of a connection, which may not be open yet. -/
def follow : Option Connection → Happening → Option Connection
  | none, .opened => some {}
  | some c, .received piece => some (c.receive limit answer piece).1
  | some c, .finished => some c.finish
  | none, .received _ | none, .finished => none
  | some c, .opened => some c

/-- What an answered request adds to a counter. -/
def exchangeWeight (e : Exchange) : Nat :=
  (Event.batchesFetched e.response.response.batches.length).weight k +
    (Event.request e.request.request.api 0).weight k

/-- What a happening on a connection adds to a counter. -/
def tally : Option Connection → Happening → Nat
  | none, .opened => Event.opened.weight k
  | some c, .received piece =>
    ((c.receive limit answer piece).2.map (exchangeWeight k)).sum +
      weight (Server.standingEvents c.standing (c.receive limit answer piece).1.standing) k
  | some c, .finished => weight (Server.standingEvents c.standing c.finish.standing) k
  | none, .received _ | none, .finished | some _, .opened => 0

/-- What a row of happenings on a connection adds to a counter. -/
def tallyAll : Option Connection → List Happening → Nat
  | _, [] => 0
  | c, h :: hs => tally limit answer k c h + tallyAll (follow limit answer c h) hs

end

variable {limit : Nat} {answer : RequestMessage → ResponseMessage}

/-- What happens later is counted on top. -/
theorem tallyAll_append (k : Counter) (c : Option Connection) (hs hs' : List Happening) :
    tallyAll limit answer k c (hs ++ hs') =
      tallyAll limit answer k c hs +
        tallyAll limit answer k (hs.foldl (follow limit answer) c) hs' := by
  induction hs generalizing c with
  | nil => simp [tallyAll]
  | cons h hs ih => rw [List.cons_append, tallyAll, ih, tallyAll, List.foldl_cons, Nat.add_assoc]

end Connection

/-! ## The server, connection by connection -/

namespace Server

/-- The longest body of a frame that the server takes. -/
def limit (s : Server) : Nat := s.broker.config.maxFrameLength

/-- What happens on one connection. -/
def happeningsOn (id : Nat) (happenings : List (Nat × Happening)) : List Happening :=
  (happenings.filter fun h => h.1 = id).map Prod.snd

/-- A happening on the connection is one of its own. -/
theorem happeningsOn_cons_self (id : Nat) (h : Happening) (hs : List (Nat × Happening)) :
    happeningsOn id ((id, h) :: hs) = h :: happeningsOn id hs := by
  simp [happeningsOn]

/-- One on another connection is not. -/
theorem happeningsOn_cons_of_ne {id other : Nat} (hne : other ≠ id) (h : Happening)
    (hs : List (Nat × Happening)) : happeningsOn id ((other, h) :: hs) = happeningsOn id hs := by
  simp [happeningsOn, hne]

/-- The clock has no part in what is counted. -/
theorem weight_exchangesEvents (clock : Nat → Nat) (n : Nat) (es : List Exchange) (k : Counter) :
    weight (exchangesEvents clock n es) k = (es.map (Connection.exchangeWeight k)).sum := by
  induction es generalizing n with
  | nil => rfl
  | cons e es ih =>
    have one : weight (exchangeEvents clock n e) k = Connection.exchangeWeight k e := by
      cases k <;> simp [exchangeEvents, Connection.exchangeWeight, Event.weight]
    rw [exchangesEvents, weight_append, one, ih, List.map_cons, List.sum_cons]

section

variable (clock : Nat → Nat) (s : Server)

/-! ### One step -/

theorem step_broker (id : Nat) (h : Happening) : (s.step clock id h).broker = s.broker := by
  unfold step
  split <;> rfl

theorem step_disk (id : Nat) (h : Happening) : (s.step clock id h).disk = s.disk := by
  unfold step
  split <;> rfl

theorem step_limit (id : Nat) (h : Happening) : (s.step clock id h).limit = s.limit := by
  rw [limit, step_broker, limit]

/-- Broker and disk stay as they are, so requests are answered alike throughout a run. -/
theorem step_answer (id : Nat) (h : Happening) : (s.step clock id h).answer = s.answer := by
  funext m
  rw [answer, answer, step_broker, step_disk]

/-- **A happening touches its own connection** and makes of it what it would make of it
without the others. -/
theorem step_connections (id other : Nat) (h : Happening) :
    (s.step clock id h).connections[other]? =
      if id = other then Connection.follow s.limit s.answer s.connections[id]? h
      else s.connections[other]? := by
  by_cases same : id = other
  · subst same
    rw [if_pos rfl]
    rcases hc : s.connections[id]? with _ | c <;> cases h <;>
      simp [step, hc, update, Connection.follow, limit]
  · rw [if_neg same]
    rcases hc : s.connections[id]? with _ | c <;> cases h <;>
      simp [step, hc, update, Std.HashMap.getElem?_insert, same]

/-- A happening counts what it would count on its connection alone. -/
theorem get_step (id : Nat) (h : Happening) (k : Counter) :
    (s.step clock id h).metrics.get k =
      s.metrics.get k + UInt64.ofNat
        (Connection.tally s.limit s.answer k s.connections[id]? h) := by
  rcases hc : s.connections[id]? with _ | c
  · cases h with
    | opened => simp only [step, hc, get_record, Connection.tally]
    | received piece => simp [step, hc, Connection.tally]
    | finished => simp [step, hc, Connection.tally]
  · cases h with
    | opened => simp [step, hc, Connection.tally]
    | received piece =>
      simp only [step, hc, update, get_recordAll, weight_exchangesEvents, Connection.tally, limit,
        UInt64.ofNat_add, UInt64.add_assoc]
    | finished =>
      simp [step, hc, update, get_recordAll, exchangesEvents, Connection.tally]

/-! ### A whole run -/

theorem run_cons (h : Nat × Happening) (hs : List (Nat × Happening)) :
    s.run clock (h :: hs) = (s.step clock h.1 h.2).run clock hs := rfl

/-- **A connection runs as if by itself.** -/
theorem run_connections (hs : List (Nat × Happening)) (id : Nat) :
    (s.run clock hs).connections[id]? =
      (happeningsOn id hs).foldl (Connection.follow s.limit s.answer) s.connections[id]? := by
  induction hs generalizing s with
  | nil => rfl
  | cons h hs ih =>
    obtain ⟨other, h⟩ := h
    rw [run_cons, ih, step_limit, step_answer, step_connections]
    by_cases same : other = id
    · subst same
      rw [if_pos rfl, happeningsOn_cons_self, List.foldl_cons]
    · rw [if_neg same, happeningsOn_cons_of_ne same]

/-- **A run counts what its connections would count** by themselves. The induction is on
the run: its first happening moves one summand and leaves the others. -/
theorem get_run {ids : Finset Nat} {hs : List (Nat × Happening)} (only : ∀ h ∈ hs, h.1 ∈ ids)
    (k : Counter) :
    (s.run clock hs).metrics.get k = s.metrics.get k + UInt64.ofNat
      (∑ id ∈ ids,
        Connection.tallyAll s.limit s.answer k s.connections[id]? (happeningsOn id hs)) := by
  induction hs generalizing s with
  | nil => simp [run, happeningsOn, Connection.tallyAll]
  | cons h hs ih =>
    obtain ⟨first, h⟩ := h
    obtain ⟨member, others⟩ := List.forall_mem_cons.mp only
    have later := ih (s.step clock first h) others
    -- the happening counts in one summand, and the others stay as they are
    have summand (id : Nat) :
        Connection.tallyAll s.limit s.answer k s.connections[id]?
            (happeningsOn id ((first, h) :: hs)) =
          (if first = id then Connection.tally s.limit s.answer k s.connections[first]? h else 0) +
            Connection.tallyAll s.limit s.answer k (s.step clock first h).connections[id]?
              (happeningsOn id hs) := by
      rw [step_connections]
      by_cases same : first = id
      · subst same
        rw [if_pos rfl, if_pos rfl, happeningsOn_cons_self, Connection.tallyAll]
      · rw [if_neg same, if_neg same, happeningsOn_cons_of_ne same, Nat.zero_add]
    rw [run_cons, later, get_step, step_limit, step_answer,
      Finset.sum_congr rfl fun id _ => summand id, Finset.sum_add_distrib, Finset.sum_ite_eq,
      if_pos member, UInt64.ofNat_add, UInt64.add_assoc]

end

end Server

/-! ## Sessions -/

/-- What happens on a connection whose peer sends `stream`: it is opened, and the stream
arrives in pieces, cut anywhere. -/
inductive Session (limit : Nat) (stream : Bytes) : List Happening → Prop where
  /-- all of it has arrived, and the peer has not said that this is all -/
  | arrived (pieces : List Bytes) (whole : pieces.flatten = stream) :
    Session limit stream (.opened :: pieces.map .received)
  /-- all of it has arrived, and the peer has said so -/
  | finished (pieces : List Bytes) (whole : pieces.flatten = stream) :
    Session limit stream (.opened :: pieces.map .received ++ [.finished])
  /-- the connection failed at what has arrived, and the rest is never read -/
  | failed (pieces : List Bytes) (unread : Bytes) (whole : pieces.flatten ++ unread = stream)
    (fails : Connection.Fails limit pieces.flatten) :
    Session limit stream (.opened :: pieces.map .received)

/-- The session has reached its end: the end of the peer's input, or a frame that cannot
be read. -/
def Session.Over (limit : Nat) (stream : Bytes) (happenings : List Happening) : Prop :=
  .finished ∈ happenings ∨ Connection.Fails limit stream

namespace Connection

variable {limit : Nat} {answer : RequestMessage → ResponseMessage}

/-- What the requests of a stream add to a counter. -/
def answersWeight (limit : Nat) (answer : RequestMessage → ResponseMessage) (k : Counter)
    (stream : Bytes) : Nat :=
  (((requests limit stream).map (exchange answer)).map (exchangeWeight k)).sum

/-- What the requests and the failing of a stream add to a counter. -/
def streamWeight (limit : Nat) (answer : RequestMessage → ResponseMessage) (k : Counter)
    (stream : Bytes) : Nat :=
  answersWeight limit answer k stream +
    if Fails limit stream then weight [.decodeError, .closed] k else 0

/-- What a session that is over adds to a counter: its opening, its requests, its failing
if it fails, and its closing. -/
def sessionWeight (limit : Nat) (answer : RequestMessage → ResponseMessage) (k : Counter)
    (stream : Bytes) : Nat :=
  Event.opened.weight k + answersWeight limit answer k stream +
    (if Fails limit stream then Event.decodeError.weight k else 0) + Event.closed.weight k

/-- Pieces take a connection through the stream that they spell. -/
theorem follow_received (stream : Bytes) (pieces : List Bytes) :
    (pieces.map Happening.received).foldl (follow limit answer) (some (heard limit answer stream)) =
      some (heard limit answer (stream ++ pieces.flatten)) := by
  induction pieces generalizing stream with
  | nil => rw [List.map_nil, List.foldl_nil, List.flatten_nil, List.append_nil]
  | cons piece pieces ih =>
    rw [List.map_cons, List.foldl_cons, follow, receive_heard, ih, List.flatten_cons,
      List.append_assoc]

theorem standing_heard (stream : Bytes) :
    (heard limit answer stream).standing = if Fails limit stream then .failed else .live := rfl

/-- A piece counts what it adds to the stream. -/
theorem tally_received (k : Counter) (stream piece : Bytes) :
    tally limit answer k (some (heard limit answer stream)) (.received piece) +
        streamWeight limit answer k stream =
      streamWeight limit answer k (stream ++ piece) := by
  simp only [tally, streamWeight, answersWeight, receive_heard, standing_heard,
    requests_append_receive, List.map_append, List.sum_append]
  -- the failing counts once, with the piece that makes the stream fail
  by_cases before : Fails limit stream
  · simp only [before, before.append piece, if_true, Server.standingEvents, weight_nil]
    omega
  · by_cases after : Fails limit (stream ++ piece)
    · simp only [before, after, if_true, if_false, Server.standingEvents]
      omega
    · simp only [before, after, if_false, Server.standingEvents, weight_nil]
      omega

/-- What the pieces add is what the longer stream has in addition. -/
theorem tallyAll_received (k : Counter) (stream : Bytes) (pieces : List Bytes) :
    tallyAll limit answer k (some (heard limit answer stream)) (pieces.map .received) +
        streamWeight limit answer k stream =
      streamWeight limit answer k (stream ++ pieces.flatten) := by
  induction pieces generalizing stream with
  | nil => simp [tallyAll]
  | cons piece pieces ih =>
    have first : _ = streamWeight limit answer k _ := tally_received k stream piece
    have others := ih (stream ++ piece)
    rw [List.map_cons, tallyAll, follow, receive_heard, List.flatten_cons, ← List.append_assoc,
      ← others, ← first]
    omega

theorem streamWeight_nil (k : Counter) : streamWeight limit answer k [] = 0 := by
  rw [streamWeight, answersWeight, requests_of_stuck (Frame.stuck_nil limit),
    if_neg (not_fails_nil limit)]
  rfl

/-- Opening a connection and sending a stream on it. -/
theorem tallyAll_opened (k : Counter) (pieces : List Bytes) :
    tallyAll limit answer k none (.opened :: pieces.map .received) =
      Event.opened.weight k + streamWeight limit answer k pieces.flatten := by
  have arrived : _ = streamWeight limit answer k _ := tallyAll_received k [] pieces
  rw [streamWeight_nil, List.nil_append, heard_nil, Nat.add_zero] at arrived
  rw [tallyAll, tally, follow, arrived]

/-- A connection that is opened and hears pieces has heard their stream. -/
theorem foldl_follow_opened (pieces : List Bytes) :
    (Happening.opened :: pieces.map .received).foldl (follow limit answer) none =
      some (heard limit answer pieces.flatten) := by
  rw [List.foldl_cons, follow, ← heard_nil limit answer, follow_received, List.nil_append]

/-- What a connection that fails in the middle has sent is all that it will send. -/
theorem answers_append_of_fails {stream : Bytes} (h : Fails limit stream) (unread : Bytes) :
    answers limit answer (stream ++ unread) = answers limit answer stream := by
  rw [answers, requests_append_of_fails h, answers]

/-- Behind a failure nothing is counted. -/
theorem streamWeight_append_of_fails {stream : Bytes} (h : Fails limit stream) (unread : Bytes)
    (k : Counter) :
    streamWeight limit answer k (stream ++ unread) = streamWeight limit answer k stream := by
  rw [streamWeight, answersWeight, requests_append_of_fails h, if_pos (h.append unread),
    streamWeight, answersWeight, if_pos h]

/-- A session sends the answers to its stream. -/
theorem sent_of_session (answer : RequestMessage → ResponseMessage) {stream : Bytes}
    {hs : List Happening} (session : Session limit stream hs) :
    ∃ c, hs.foldl (follow limit answer) none = some c ∧ c.sent = answers limit answer stream := by
  cases session with
  | arrived pieces whole =>
    rw [foldl_follow_opened, whole]
    exact ⟨_, rfl, rfl⟩
  | finished pieces whole =>
    rw [List.foldl_append, foldl_follow_opened, whole]
    refine ⟨_, rfl, ?_⟩
    rw [finish]
    split <;> rfl
  | failed pieces unread whole fails =>
    rw [foldl_follow_opened, ← whole, answers_append_of_fails fails]
    exact ⟨_, rfl, rfl⟩

/-- A session that is over counts what its stream says. -/
theorem tallyAll_of_session {stream : Bytes} {hs : List Happening}
    (session : Session limit stream hs) (ended : Session.Over limit stream hs) (k : Counter) :
    tallyAll limit answer k none hs = sessionWeight limit answer k stream := by
  have unfinished (pieces : List Bytes) :
      Happening.finished ∉ Happening.opened :: pieces.map Happening.received := by simp
  cases session with
  | arrived pieces whole =>
    have fails : Fails limit stream := ended.resolve_left (unfinished pieces)
    rw [tallyAll_opened, whole, streamWeight, if_pos fails, sessionWeight, if_pos fails]
    simp only [weight_cons, weight_nil]
    omega
  | finished pieces whole =>
    rw [tallyAll_append, tallyAll_opened, foldl_follow_opened, whole, tallyAll, tallyAll, tally,
      streamWeight, sessionWeight]
    -- a connection that has failed is closed already when the peer's input ends
    by_cases fails : Fails limit stream
    · have standing : (heard limit answer stream).standing = .failed := if_pos fails
      rw [finish, standing]
      simp only [fails, if_true, Server.standingEvents, weight_cons, weight_nil]
      omega
    · have standing : (heard limit answer stream).standing = .live := if_neg fails
      rw [finish, standing]
      simp only [fails, if_false, Server.standingEvents, weight_cons, weight_nil]
      omega
  | failed pieces unread whole fails =>
    have failing : Fails limit stream := whole ▸ fails.append unread
    rw [tallyAll_opened, ← streamWeight_append_of_fails fails unread, whole, streamWeight,
      if_pos failing, sessionWeight, if_pos failing]
    simp only [weight_cons, weight_nil]
    omega

/-! ### Counter by counter -/

section

variable (answer : RequestMessage → ResponseMessage) (stream : Bytes)

/-- Each request counts once. -/
theorem sum_exchangeWeight_requests (ms : List RequestMessage) :
    ((ms.map (exchange answer)).map (exchangeWeight .requests)).sum = ms.length := by
  induction ms with
  | nil => rfl
  | cons m ms ih =>
    rw [List.map_cons, List.map_cons, List.sum_cons, ih, List.length_cons, Nat.add_comm]
    rfl

/-- It counts for its own api. -/
theorem sum_exchangeWeight_requestsTo (api : ApiKey) (ms : List RequestMessage) :
    ((ms.map (exchange answer)).map (exchangeWeight (.requestsTo api))).sum =
      ms.countP fun m => m.request.api = api := by
  induction ms with
  | nil => rfl
  | cons m ms ih =>
    rw [List.map_cons, List.map_cons, List.sum_cons, ih, List.countP_cons, Nat.add_comm]
    by_cases h : m.request.api = api <;> simp [exchangeWeight, exchange, Event.weight, h]

/-- Requests count for nothing but the requests and what they fetch. -/
theorem sum_exchangeWeight_eq_zero {k : Counter}
    (hk : k = .decodeErrors ∨ k = .opened ∨ k = .closed) (ms : List RequestMessage) :
    ((ms.map (exchange answer)).map (exchangeWeight k)).sum = 0 := by
  induction ms with
  | nil => rfl
  | cons m ms ih =>
    rw [List.map_cons, List.map_cons, List.sum_cons, ih]
    rcases hk with rfl | rfl | rfl <;> rfl

theorem sessionWeight_requests :
    sessionWeight limit answer .requests stream = (requests limit stream).length := by
  rw [sessionWeight, answersWeight, sum_exchangeWeight_requests]
  simp [Event.weight]

theorem sessionWeight_requestsTo (api : ApiKey) :
    sessionWeight limit answer (.requestsTo api) stream =
      (requests limit stream).countP fun m => m.request.api = api := by
  rw [sessionWeight, answersWeight, sum_exchangeWeight_requestsTo]
  simp [Event.weight]

/-- A session has one failure at most. -/
theorem sessionWeight_decodeErrors :
    sessionWeight limit answer .decodeErrors stream = if Fails limit stream then 1 else 0 := by
  rw [sessionWeight, answersWeight, sum_exchangeWeight_eq_zero answer (.inl rfl)]
  simp [Event.weight]

theorem sessionWeight_opened : sessionWeight limit answer .opened stream = 1 := by
  rw [sessionWeight, answersWeight, sum_exchangeWeight_eq_zero answer (.inr (.inl rfl))]
  simp [Event.weight]

theorem sessionWeight_closed : sessionWeight limit answer .closed stream = 1 := by
  rw [sessionWeight, answersWeight, sum_exchangeWeight_eq_zero answer (.inr (.inr rfl))]
  simp [Event.weight]

end

end Connection

namespace Server

variable {s : Server} {clock : Nat → Nat} {ids : Finset Nat} {stream : Nat → Bytes}
  {happenings : List (Nat × Happening)}

/-- A session's connection has sent the answers to its stream, whatever happens on others. -/
theorem sentOn_of_session {id : Nat} (fresh : s.connections[id]? = none) {stream : Bytes}
    (session : Session s.limit stream (happeningsOn id happenings)) :
    (s.run clock happenings).sentOn id =
      (Connection.requests s.limit stream).flatMap fun m => (s.answer m).toFrame := by
  obtain ⟨c, hc, sent⟩ := Connection.sent_of_session s.answer session
  rw [sentOn, run_connections, fresh, hc]
  exact sent

/-- Sessions that are over have counted what their streams ask. -/
theorem get_run_of_sessions (clock : Nat → Nat)
    (fresh : ∀ id ∈ ids, s.connections[id]? = none)
    (only : ∀ h ∈ happenings, h.1 ∈ ids)
    (session : ∀ id ∈ ids, Session s.limit (stream id) (happeningsOn id happenings))
    (ended : ∀ id ∈ ids, Session.Over s.limit (stream id) (happeningsOn id happenings))
    (k : Counter) :
    (s.run clock happenings).metrics.get k = s.metrics.get k + UInt64.ofNat
      (∑ id ∈ ids, Connection.sessionWeight s.limit s.answer k (stream id)) := by
  rw [get_run clock s only]
  congr 2
  refine Finset.sum_congr rfl ?_
  intro id hid
  rw [fresh id hid, Connection.tallyAll_of_session (session id hid) (ended id hid)]

/-- A request for the apis by a nameless client. -/
def listing : RequestMessage where
  header := RequestHeader.forApi .apiVersions 4 7
  request := .apiVersions {}

/-- A server that takes short frames only. -/
def terse : Server := { broker := { config := { maxFrameLength := 100 } }, disk := Disk.empty }

/-- One peer asks for the apis; another one announces a frame that is too long. -/
def twoStreams (id : Nat) : Bytes := if id = 1 then listing.toFrame else [0, 0, 1, 0, 9]

/-- The two streams in pieces, of which those of one come between those of the other. The
last byte of the second stream is never read. -/
def twoPeers : List (Nat × Happening) :=
  [(1, .opened), (2, .opened), (1, .received (listing.toFrame.take 6)), (2, .received [0, 0]),
    (2, .received [1, 0]), (1, .received (listing.toFrame.drop 6)), (1, .finished)]

end Server

end LogBroker
