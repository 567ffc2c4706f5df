import LogBroker.Proofs.Wire.Framing
import LogBroker.Server.Connection

/-!
# However a stream is cut

A peer's stream arrives in pieces. What a connection answers is said here of the stream as
a whole: `Connection.requests` are the messages in the frames at its front, up to the
first frame that is incomplete, refused, or holds no request, and `Connection.Fails` says
that it is one of the latter two that comes then.

A connection that has heard a stream is in the state `Connection.heard`, and a further
piece takes it to the state for the longer stream (`receive_heard`). So the pieces leave
no trace: only what they spell together counts (`hear_heard`).
-/

namespace LogBroker

open Wire

/-! ## The requests of a stream -/

namespace RequestMessage

/-- There is no request at the front of the body. -/
def Unreadable (body : Bytes) : Prop := ∃ e, (read body).1 = .error e

instance (body : Bytes) : Decidable (Unreadable body) :=
  match h : (read body).1 with
  | .error e => isTrue ⟨e, h⟩
  | .ok _ => isFalse fun ⟨_, h'⟩ => by rw [h] at h'; cases h'

/-- The messages that the bodies hold, up to the first body that holds none. -/
def ofBodies : List Bytes → List RequestMessage
  | [] => []
  | body :: bodies =>
    match read body with
    | (.ok m, _) => m :: ofBodies bodies
    | (.error _, _) => []

theorem ofBodies_cons_of_ok {body rest : Bytes} {m : RequestMessage} (h : read body = (.ok m, rest))
    (bodies : List Bytes) : ofBodies (body :: bodies) = m :: ofBodies bodies := by
  rw [ofBodies, h]

theorem ofBodies_cons_of_unreadable {body : Bytes} (h : Unreadable body) (bodies : List Bytes) :
    ofBodies (body :: bodies) = [] := by
  obtain ⟨e, he⟩ := h
  rcases hr : read body with ⟨_ | m, rest⟩
  · rw [ofBodies, hr]
  · rw [hr] at he
    cases he

/-- A body holds a message, or it is unreadable. -/
theorem readable_or_unreadable (body : Bytes) :
    (∃ m rest, read body = (.ok m, rest) ∧ ¬ Unreadable body) ∨ Unreadable body := by
  rcases hr : read body with ⟨e | m, rest⟩
  · exact .inr ⟨e, by rw [hr]⟩
  · refine .inl ⟨m, rest, rfl, ?_⟩
    rintro ⟨e, he⟩
    rw [hr] at he
    cases he

/-- Behind an unreadable body nothing counts. -/
theorem ofBodies_append_of_unreadable {bodies : List Bytes} (h : ∃ body ∈ bodies, Unreadable body)
    (more : List Bytes) : ofBodies (bodies ++ more) = ofBodies bodies := by
  induction bodies with
  | nil => simp at h
  | cons body bodies ih =>
    rcases readable_or_unreadable body with ⟨m, rest, hm, readable⟩ | hu
    · have later : ∃ b ∈ bodies, Unreadable b := by
        obtain ⟨b, hb, hu⟩ := h
        rcases List.mem_cons.mp hb with rfl | hb
        · exact absurd hu readable
        · exact ⟨b, hb, hu⟩
      rw [List.cons_append, ofBodies_cons_of_ok hm, ofBodies_cons_of_ok hm, ih later]
    · rw [List.cons_append, ofBodies_cons_of_unreadable hu, ofBodies_cons_of_unreadable hu]

/-- Behind bodies that all hold messages the reading goes on. -/
theorem ofBodies_append_of_readable {bodies : List Bytes} (h : ∀ body ∈ bodies, ¬ Unreadable body)
    (more : List Bytes) : ofBodies (bodies ++ more) = ofBodies bodies ++ ofBodies more := by
  induction bodies with
  | nil => rfl
  | cons body bodies ih =>
    obtain ⟨first, others⟩ := List.forall_mem_cons.mp h
    rcases readable_or_unreadable body with ⟨m, rest, hm, -⟩ | hu
    · rw [List.cons_append, ofBodies_cons_of_ok hm, ofBodies_cons_of_ok hm, ih others,
        List.cons_append]
    · exact absurd hu first

end RequestMessage

namespace Connection

/-- The requests at the front of a stream, in order. -/
def requests (limit : Nat) (stream : Bytes) : List RequestMessage :=
  RequestMessage.ofBodies (Frame.bodies limit stream)

/-- The stream cannot be answered to its end: a frame holds no request, or behind the
frames there is one that is refused. -/
def Fails (limit : Nat) (stream : Bytes) : Prop :=
  (∃ body ∈ Frame.bodies limit stream, RequestMessage.Unreadable body) ∨
    ∃ length, Frame.split limit (Frame.remainder limit stream) = .tooLarge length

instance (limit : Nat) (stream : Bytes) : Decidable (Fails limit stream) :=
  match h : Frame.split limit (Frame.remainder limit stream) with
  | .tooLarge length => isTrue (.inr ⟨length, h⟩)
  | .incomplete | .body _ _ =>
    decidable_of_iff (∃ body ∈ Frame.bodies limit stream, RequestMessage.Unreadable body)
      ⟨.inl, fun h' => h'.resolve_right fun ⟨_, h''⟩ => by rw [h] at h''; cases h''⟩

section

variable {limit : Nat} {stream : Bytes}

/-! ### Streams that grow -/

/-- A stream that fails has been answered as far as it ever will be. -/
theorem requests_append_of_fails (h : Fails limit stream) (more : Bytes) :
    requests limit (stream ++ more) = requests limit stream := by
  rw [requests, Frame.bodies_append, requests]
  rcases h with unreadable | ⟨length, refused⟩
  · exact RequestMessage.ofBodies_append_of_unreadable unreadable _
  · have later := Frame.split_append_of_tooLarge refused more
    rw [Frame.bodies_of_stuck (.inr ⟨length, later⟩), List.append_nil]

/-- A stream that fails goes on failing. -/
theorem Fails.append (h : Fails limit stream) (more : Bytes) : Fails limit (stream ++ more) := by
  rcases h with ⟨body, hb, unreadable⟩ | ⟨length, refused⟩
  · refine .inl ⟨body, ?_, unreadable⟩
    rw [Frame.bodies_append]
    exact List.mem_append_left _ hb
  · have later := Frame.split_append_of_tooLarge refused more
    refine .inr ⟨length, ?_⟩
    rw [Frame.remainder_append, Frame.remainder_of_stuck (.inr ⟨length, later⟩)]
    exact later

/-- Nothing in a stream that does not fail is unreadable. -/
theorem readable_of_not_fails (h : ¬ Fails limit stream) :
    ∀ body ∈ Frame.bodies limit stream, ¬ RequestMessage.Unreadable body :=
  fun body hb unreadable => h (.inl ⟨body, hb, unreadable⟩)

/-- A stream that does not fail is answered further from what was left of it. -/
theorem requests_append (h : ¬ Fails limit stream) (more : Bytes) :
    requests limit (stream ++ more) =
      requests limit stream ++ requests limit (Frame.remainder limit stream ++ more) := by
  rw [requests, Frame.bodies_append,
    RequestMessage.ofBodies_append_of_readable (readable_of_not_fails h), requests, requests]

/-- Whether a longer stream fails is up to what was left and what follows it. -/
theorem fails_append_iff (h : ¬ Fails limit stream) (more : Bytes) :
    Fails limit (stream ++ more) ↔ Fails limit (Frame.remainder limit stream ++ more) := by
  unfold Fails
  rw [Frame.bodies_append, Frame.remainder_append]
  -- the two sides differ in the bodies of the beginning, and those are all readable
  refine or_congr_left ⟨?_, ?_⟩
  · rintro ⟨body, hb, unreadable⟩
    rcases List.mem_append.mp hb with hb | hb
    · exact absurd unreadable (readable_of_not_fails h body hb)
    · exact ⟨body, hb, unreadable⟩
  · rintro ⟨body, hb, unreadable⟩
    exact ⟨body, List.mem_append_right _ hb, unreadable⟩

/-! ### The frame at the front -/

/-- A request in the first frame is the first request. -/
theorem requests_of_ok {frame rest left : Bytes} {m : RequestMessage}
    (h : Frame.split limit stream = .body frame rest)
    (hm : RequestMessage.read frame = (.ok m, left)) :
    requests limit stream = m :: requests limit rest := by
  rw [requests, Frame.bodies_of_body h, RequestMessage.ofBodies_cons_of_ok hm, requests]

/-- A first frame without a request is the end of them. -/
theorem requests_of_unreadable {frame rest : Bytes}
    (h : Frame.split limit stream = .body frame rest)
    (unreadable : RequestMessage.Unreadable frame) : requests limit stream = [] := by
  rw [requests, Frame.bodies_of_body h, RequestMessage.ofBodies_cons_of_unreadable unreadable]

theorem requests_of_stuck (h : Frame.Stuck limit stream) : requests limit stream = [] := by
  rw [requests, Frame.bodies_of_stuck h, RequestMessage.ofBodies]

theorem fails_of_unreadable {frame rest : Bytes} (h : Frame.split limit stream = .body frame rest)
    (unreadable : RequestMessage.Unreadable frame) : Fails limit stream := by
  refine .inl ⟨frame, ?_, unreadable⟩
  rw [Frame.bodies_of_body h]
  exact List.mem_cons_self

/-- Behind a frame that can be read the rest decides. -/
theorem fails_iff_of_readable {frame rest : Bytes}
    (h : Frame.split limit stream = .body frame rest)
    (readable : ¬ RequestMessage.Unreadable frame) : Fails limit stream ↔ Fails limit rest := by
  unfold Fails
  rw [Frame.bodies_of_body h, Frame.remainder_of_body h]
  refine or_congr_left ⟨?_, ?_⟩
  · rintro ⟨body, hb, unreadable⟩
    rcases List.mem_cons.mp hb with rfl | hb
    · exact absurd unreadable readable
    · exact ⟨body, hb, unreadable⟩
  · rintro ⟨body, hb, unreadable⟩
    exact ⟨body, List.mem_cons_of_mem frame hb, unreadable⟩

theorem fails_of_tooLarge {length : Int32} (h : Frame.split limit stream = .tooLarge length) :
    Fails limit stream := by
  refine .inr ⟨length, ?_⟩
  rwa [Frame.remainder_of_stuck (.inr ⟨length, h⟩)]

theorem not_fails_of_incomplete (h : Frame.split limit stream = .incomplete) :
    ¬ Fails limit stream := by
  rintro (⟨body, hb, -⟩ | ⟨length, refused⟩)
  · rw [Frame.bodies_of_stuck (.inl h)] at hb
    cases hb
  · rw [Frame.remainder_of_stuck (.inl h), h] at refused
    cases refused

/-! ## Answering -/

/-- A request with its answer. -/
def exchange (answer : RequestMessage → ResponseMessage) (m : RequestMessage) : Exchange :=
  ⟨m, answer m⟩

variable {answer : RequestMessage → ResponseMessage}

/-- One round of draining. -/
theorem drain_step (buffer : Bytes) : drain limit answer buffer =
    match Frame.splitOff limit buffer with
    | (.ok none, left) => ([], some left)
    | (.error _, _) => ([], none)
    | (.ok (some frame), rest) =>
      match RequestMessage.read frame with
      | (.error _, _) => ([], none)
      | (.ok m, _) =>
        (exchange answer m :: (drain limit answer rest).1, (drain limit answer rest).2) := by
  rw [drain]
  split
  next h => rw [h]
  next h => rw [h]
  next h =>
    -- on the left the equation is also in the proof that the rest is shorter
    conv => rhs; rw [h]
    rfl

/-- A request is answered, and the rest of the buffer is gone through. -/
theorem drain_of_ok {frame rest left : Bytes} {m : RequestMessage}
    (h : Frame.split limit stream = .body frame rest)
    (hm : RequestMessage.read frame = (.ok m, left)) :
    drain limit answer stream =
      (exchange answer m :: (drain limit answer rest).1, (drain limit answer rest).2) := by
  rw [drain_step, Frame.splitOff_of_body h]
  simp only [hm]

/-- A frame without a request leaves no buffer. -/
theorem drain_of_unreadable {frame rest : Bytes} (h : Frame.split limit stream = .body frame rest)
    (unreadable : RequestMessage.Unreadable frame) : drain limit answer stream = ([], none) := by
  obtain ⟨e, he⟩ := unreadable
  rcases hr : RequestMessage.read frame with ⟨e' | m, left⟩
  · rw [drain_step, Frame.splitOff_of_body h]
    simp only [hr]
  · rw [hr] at he
    cases he

/-- What has not arrived in full stays in the buffer. -/
theorem drain_of_incomplete (h : Frame.split limit stream = .incomplete) :
    drain limit answer stream = ([], some stream) := by
  rw [drain_step, Frame.splitOff_of_incomplete h]

/-- A frame that is refused leaves no buffer. -/
theorem drain_of_tooLarge {length : Int32} (h : Frame.split limit stream = .tooLarge length) :
    drain limit answer stream = ([], none) := by
  rw [drain_step, Frame.splitOff_of_tooLarge h]

/-- Draining answers the requests at the front, and leaves what is behind the frames
unless the buffer fails. -/
theorem drain_eq (limit : Nat) (answer : RequestMessage → ResponseMessage) (stream : Bytes) :
    drain limit answer stream = ((requests limit stream).map (exchange answer),
      if Fails limit stream then none else some (Frame.remainder limit stream)) := by
  induction stream using Frame.stream_induction limit with
  | stuck stream h =>
    have nothing := requests_of_stuck h
    rcases h with h | ⟨length, h⟩
    · rw [drain_of_incomplete h, if_neg (not_fails_of_incomplete h),
        Frame.remainder_of_stuck (.inl h), nothing, List.map_nil]
    · rw [drain_of_tooLarge h, if_pos (fails_of_tooLarge h), nothing, List.map_nil]
  | body stream frame rest h ih =>
    -- behind a readable frame the rest decides; an unreadable one ends the answering
    rcases RequestMessage.readable_or_unreadable frame with ⟨m, left, hm, readable⟩ | unreadable
    · simp only [drain_of_ok h hm, ih, requests_of_ok h hm, List.map_cons,
        fails_iff_of_readable h readable, Frame.remainder_of_body h]
    · rw [drain_of_unreadable h unreadable, if_pos (fails_of_unreadable h unreadable),
        requests_of_unreadable h unreadable, List.map_nil]

end

/-! ## What a connection has heard -/

section

variable (limit : Nat) (answer : RequestMessage → ResponseMessage)

/-- All answers to a stream, in their frames. -/
def answers (stream : Bytes) : Bytes :=
  (requests limit stream).flatMap fun m => (answer m).toFrame

/-- A connection on which the stream has arrived. -/
def heard (stream : Bytes) : Connection where
  standing := if Fails limit stream then .failed else .live
  buffer := if Fails limit stream then [] else Frame.remainder limit stream
  sent := answers limit answer stream

theorem not_fails_nil : ¬ Fails limit [] :=
  not_fails_of_incomplete (Frame.split_of_short (by decide))

/-- A connection begins with the empty stream. -/
theorem heard_nil : heard limit answer [] = {} := by
  rw [heard, answers, requests_of_stuck (Frame.stuck_nil limit), if_neg (not_fails_nil limit),
    if_neg (not_fails_nil limit), Frame.remainder_of_stuck (Frame.stuck_nil limit)]
  rfl

variable {limit answer}

/-- **A piece leaves no trace.** A connection that has heard a stream and receives a piece
is one that has heard the stream with the piece behind it. -/
theorem receive_heard (stream piece : Bytes) :
    ((heard limit answer stream).receive limit answer piece).1 =
      heard limit answer (stream ++ piece) := by
  by_cases h : Fails limit stream
  -- a connection that has failed hears nothing, and its stream fails however it goes on
  · have closed : (heard limit answer stream).standing = .failed := if_pos h
    simp only [receive, closed]
    simp only [heard, answers, requests_append_of_fails h, if_pos h, if_pos (h.append piece)]
  · have live : (heard limit answer stream).standing = .live := if_neg h
    have buffer : (heard limit answer stream).buffer = Frame.remainder limit stream := if_neg h
    simp only [receive, live, buffer, drain_eq]
    by_cases later : Fails limit (stream ++ piece)
    · have := (fails_append_iff h piece).mp later
      simp [heard, answers, requests_append h, later, this, List.flatMap_map, exchange]
    · have := mt (fails_append_iff h piece).mpr later
      simp [heard, answers, requests_append h, later, this, List.flatMap_map, exchange,
        Frame.remainder_append limit stream piece]

/-- What is answered because of a piece is what the longer stream asks in addition. -/
theorem requests_append_receive (stream piece : Bytes) :
    (requests limit (stream ++ piece)).map (exchange answer) =
      (requests limit stream).map (exchange answer) ++
        ((heard limit answer stream).receive limit answer piece).2 := by
  by_cases h : Fails limit stream
  · have closed : (heard limit answer stream).standing = .failed := if_pos h
    simp only [receive, closed, requests_append_of_fails h, List.append_nil]
  · have live : (heard limit answer stream).standing = .live := if_neg h
    have buffer : (heard limit answer stream).buffer = Frame.remainder limit stream := if_neg h
    simp only [receive, live, buffer, drain_eq, requests_append h, List.map_append]
    split <;> rfl

/-- A connection after several pieces. -/
def hear (limit : Nat) (answer : RequestMessage → ResponseMessage) (c : Connection)
    (pieces : List Bytes) : Connection :=
  pieces.foldl (fun c piece => (c.receive limit answer piece).1) c

/-- **Only the stream counts**, however it was cut. -/
theorem hear_heard (stream : Bytes) (pieces : List Bytes) :
    hear limit answer (heard limit answer stream) pieces =
      heard limit answer (stream ++ pieces.flatten) := by
  induction pieces generalizing stream with
  | nil => rw [List.flatten_nil, List.append_nil, hear, List.foldl_nil]
  | cons piece pieces ih =>
    rw [hear, List.foldl_cons, receive_heard, ← hear, ih, List.flatten_cons, List.append_assoc]

end

end Connection

end LogBroker
