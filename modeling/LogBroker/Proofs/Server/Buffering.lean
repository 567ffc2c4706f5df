import LogBroker.Proofs.Message.FramePaths
import Mathlib.Data.List.Induction

/-!
# A buffer in use

Bytes are pushed behind a buffer as they arrive, and frames are split off its front, early or
late, with a limit that may change from split to split, and again after a split that gave
nothing. `Intake` is a buffer together with what its splits have given; an `Action` takes it one
step further.

* Whatever is done, the bytes that were pushed are those of the frames that came off, and behind
  them the buffer (`Intake.Intact`).
* If all splits have one limit, then how the bytes were pushed does not matter: what came off is
  the front of what comes off all of them at once, and a refusal is final (`Intake.Steady`).

Both hold of the buffer that is empty, and each action preserves them. What comes off all of the
bytes is said without a split: it is the longest row of frames that they begin with (`Longest`).

Main statement: `Intake.after_intact_steady`.
-/

namespace LogBroker.Wire.Frame

/-! ## The frames of a stream -/

/-- A stream begins with the frames around these bodies, none of them too long for its field or
for the limit. -/
structure Begins (limit : Nat) (stream : Bytes) (frames : List Bytes) : Prop where
  /-- the frames stand at the front, one behind the other -/
  front : frames.flatMap encode <+: stream
  /-- each can be written and is accepted -/
  bounded : ∀ frame ∈ frames, frame.length < 2 ^ 31 ∧ frame.length ≤ limit

/-- These are all the frames that a stream begins with. -/
structure Longest (limit : Nat) (stream : Bytes) (frames : List Bytes) : Prop where
  /-- it begins with them -/
  begins : Begins limit stream frames
  /-- whatever else it begins with, they go on from there -/
  longest (others : List Bytes) : Begins limit stream others → others <+: frames

section

variable {limit : Nat} {stream frame : Bytes} {frames : List Bytes}

/-- A body that comes off is no longer than the limit. -/
theorem length_le_of_split {rest : Bytes} (h : split limit stream = .body frame rest) :
    frame.length ≤ limit := by
  obtain ⟨whole, small⟩ := eq_encode_of_split h
  rw [whole] at h
  exact ((split_encode_iff frame rest).mp h).2

/-- The first frame comes off, and the others stand at the front then. -/
theorem Begins.comesOff (h : Begins limit stream (frame :: frames)) :
    ∃ rest, split limit stream = .body frame rest ∧ Begins limit rest frames := by
  obtain ⟨⟨small, short⟩, others⟩ := List.forall_mem_cons.mp h.bounded
  obtain ⟨tail, whole⟩ := h.front
  rw [List.flatMap_cons, List.append_assoc] at whole
  refine ⟨frames.flatMap encode ++ tail, ?_, ⟨tail, rfl⟩, others⟩
  rw [← whole, split_encode small short]

/-- What comes off stood in front. -/
theorem Begins.cons {rest : Bytes} (h : split limit stream = .body frame rest)
    (others : Begins limit rest frames) : Begins limit stream (frame :: frames) := by
  obtain ⟨whole, small⟩ := eq_encode_of_split h
  obtain ⟨tail, behind⟩ := others.front
  refine ⟨⟨tail, ?_⟩, List.forall_mem_cons.mpr ⟨⟨small, length_le_of_split h⟩, others.bounded⟩⟩
  rw [whole, ← behind, List.flatMap_cons, List.append_assoc]

/-- Each stream begins with no frames. -/
theorem begins_nil (limit : Nat) (stream : Bytes) : Begins limit stream [] where
  front := List.nil_prefix
  bounded _ mem := absurd mem List.not_mem_nil

/-- **Splitting finds all frames**, and nothing that is not in one. -/
theorem longest_bodies (limit : Nat) (stream : Bytes) :
    Longest limit stream (bodies limit stream) := by
  induction stream using stream_induction limit with
  | stuck stream stuck =>
    rw [bodies_of_stuck stuck]
    refine ⟨begins_nil limit stream, ?_⟩
    rintro (_ | ⟨frame, frames⟩) begins
    · exact List.nil_prefix
    · obtain ⟨rest, body, -⟩ := begins.comesOff
      rcases stuck with none | ⟨length, none⟩ <;> rw [body] at none <;> cases none
  | body stream frame rest body ih =>
    rw [bodies_of_body body]
    refine ⟨.cons body ih.begins, ?_⟩
    rintro (_ | ⟨other, others⟩) begins
    · exact List.nil_prefix
    · obtain ⟨behind, same, following⟩ := begins.comesOff
      rw [body] at same
      cases same
      exact List.cons_prefix_cons.mpr ⟨rfl, ih.longest others following⟩

end

/-! ## Actions -/

/-- What can be done with a buffer. -/
inductive Action where
  /-- these bytes have arrived -/
  | push (bytes : Bytes)
  /-- the first frame is wanted, if it is no longer than the limit -/
  | split (limit : Nat)
deriving DecidableEq, Repr

/-- The body that a split gives, if it gives one. -/
def frame? (outcome : Except Int32 (Option Bytes)) : Option Bytes := outcome.toOption.join

section

variable {limit : Nat} {buffer : Bytes}

/-- Where no frame comes off, the split gives nothing and leaves the buffer as it is. -/
theorem splitOff_of_stuck (h : Stuck limit buffer) :
    frame? (splitOff limit buffer).1 = none ∧ (splitOff limit buffer).2 = buffer := by
  rcases h with none | ⟨length, refused⟩
  · rw [splitOff_of_incomplete none]
    exact ⟨rfl, rfl⟩
  · rw [splitOff_of_tooLarge refused]
    exact ⟨rfl, rfl⟩

/-- A split that gives nothing found no frame. -/
theorem stuck_of_splitOff (h : frame? (splitOff limit buffer).1 = none) : Stuck limit buffer := by
  rcases body_or_stuck limit buffer with ⟨frame, rest, body, -⟩ | stuck
  · rw [splitOff_of_body body] at h
    cases h
  · exact stuck

/-- The split fails just if the buffer begins with a length that is refused. -/
theorem splitOff_eq_error_iff {length : Int32} :
    (splitOff limit buffer).1 = .error length ↔ split limit buffer = .tooLarge length := by
  rcases h : split limit buffer with _ | declared | ⟨frame, rest⟩
  · simp [splitOff_of_incomplete h]
  · simp [splitOff_of_tooLarge h]
  · simp [splitOff_of_body h]

end

/-- A buffer and its history. -/
structure Intake where
  /-- what is there -/
  buffer : Bytes := []
  /-- the splits so far, each with its limit, first one first -/
  splits : List (Nat × Except Int32 (Option Bytes)) := []
deriving DecidableEq, Repr

/-- The bytes that are pushed. -/
def pushed (actions : List Action) : Bytes :=
  actions.flatMap fun
    | .push bytes => bytes
    | .split _ => []

/-- All splits have this limit. -/
def Limited (limit : Nat) (actions : List Action) : Prop :=
  ∀ other, .split other ∈ actions → other = limit

namespace Intake

/-- The bodies that came off. -/
def frames (s : Intake) : List Bytes := s.splits.filterMap fun (_, outcome) => frame? outcome

/-- One action. -/
def act (s : Intake) : Action → Intake
  | .push bytes => { s with buffer := s.buffer ++ bytes }
  | .split limit =>
    let (outcome, left) := splitOff limit s.buffer
    { buffer := left, splits := s.splits ++ [(limit, outcome)] }

/-- A buffer that was empty, after these actions. -/
def after (actions : List Action) : Intake := actions.foldl act {}

theorem after_append (actions : List Action) (action : Action) :
    after (actions ++ [action]) = (after actions).act action := List.foldl_append

/-- What is pushed later comes behind. -/
theorem pushed_append (actions more : List Action) :
    pushed (actions ++ more) = pushed actions ++ pushed more := List.flatMap_append

/-- A split that gives nothing is noted, and nothing else changes. -/
theorem act_split_of_stuck {s : Intake} {limit : Nat} (h : Stuck limit s.buffer) :
    (s.act (.split limit)).buffer = s.buffer ∧ (s.act (.split limit)).frames = s.frames := by
  obtain ⟨none, left⟩ := splitOff_of_stuck h
  refine ⟨left, ?_⟩
  simp [act, frames, none]

/-- A split that gives a frame leaves what is behind it. -/
theorem act_split_of_body {s : Intake} {limit : Nat} {frame rest : Bytes}
    (h : Frame.split limit s.buffer = .body frame rest) :
    (s.act (.split limit)).buffer = rest ∧
      (s.act (.split limit)).frames = s.frames ++ [frame] := by
  simp [act, frames, splitOff_of_body h, frame?, Except.toOption]

/-! ## With any limits -/

/-- All of the stream is there, in its order. -/
structure Intact (stream : Bytes) (s : Intake) : Prop where
  /-- it is in the frames that came off and, behind them, in the buffer -/
  whole : stream = s.frames.flatMap encode ++ s.buffer
  /-- a body has a length that its field can hold, and that its split allowed -/
  bounded (limit : Nat) (frame : Bytes) :
    (limit, .ok (some frame)) ∈ s.splits → frame.length < 2 ^ 31 ∧ frame.length ≤ limit

theorem intact_empty : Intact [] {} where
  whole := rfl
  bounded _ _ mem := absurd mem List.not_mem_nil

namespace Intact

variable {stream : Bytes} {s : Intake}

/-- Bytes that arrive are in the buffer. -/
theorem push (h : s.Intact stream) (bytes : Bytes) :
    (s.act (.push bytes)).Intact (stream ++ bytes) where
  whole := by
    show stream ++ bytes = s.frames.flatMap encode ++ (s.buffer ++ bytes)
    rw [h.whole, List.append_assoc]
  bounded := h.bounded

/-- A split moves bytes from the buffer to the frames, or none. -/
theorem split (h : s.Intact stream) (limit : Nat) : (s.act (.split limit)).Intact stream := by
  refine { whole := ?_, bounded := ?_ }
  · rcases body_or_stuck limit s.buffer with ⟨frame, rest, body, -⟩ | stuck
    · obtain ⟨left, grown⟩ := act_split_of_body body
      -- what came off and what is left are the buffer that was there
      rw [left, grown, List.flatMap_append, List.flatMap_singleton, List.append_assoc,
        ← (eq_encode_of_split body).1]
      exact h.whole
    · obtain ⟨left, same⟩ := act_split_of_stuck stuck
      rw [left, same]
      exact h.whole
  · intro other frame mem
    rcases List.mem_append.mp mem with before | now
    · exact h.bounded other frame before
    · obtain ⟨rfl, given⟩ := Prod.mk.inj (List.mem_singleton.mp now)
      have body := split_of_splitOff (Prod.ext given.symm rfl)
      exact ⟨(eq_encode_of_split body).2, length_le_of_split body⟩

end Intact

/-! ## With one limit -/

/-- What comes off is settled by the stream. -/
structure Steady (limit : Nat) (stream : Bytes) (s : Intake) : Prop where
  /-- first comes off what has come off, then what comes off the buffer, whatever arrives -/
  follows (more : Bytes) :
    bodies limit (stream ++ more) = s.frames ++ bodies limit (s.buffer ++ more)
  /-- a refusal stands at the front of the buffer -/
  refused (before : Nat) (length : Int32) : (before, .error length) ∈ s.splits →
    (splitOff limit s.buffer).1 = .error length
  /-- behind a refusal there are only refusals, of the same frame -/
  final : s.splits.Pairwise fun earlier later =>
    ∀ length, earlier.2 = .error length → later.2 = .error length

theorem steady_empty (limit : Nat) : Steady limit [] {} where
  follows _ := rfl
  refused _ _ mem := absurd mem List.not_mem_nil
  final := List.Pairwise.nil

namespace Steady

variable {limit : Nat} {stream : Bytes} {s : Intake}

/-- A buffer that is longer has the same frames in front, and more may follow. -/
theorem push (h : s.Steady limit stream) (bytes : Bytes) :
    (s.act (.push bytes)).Steady limit (stream ++ bytes) where
  follows more := by
    show _ = s.frames ++ bodies limit (s.buffer ++ bytes ++ more)
    rw [List.append_assoc, h.follows, List.append_assoc]
  refused before length mem := by
    have front := splitOff_eq_error_iff.mp (h.refused before length mem)
    exact splitOff_eq_error_iff.mpr (split_append_of_tooLarge front bytes)
  final := h.final

/-- A split takes the first frame of those to come, or none. -/
theorem split (h : s.Steady limit stream) : (s.act (.split limit)).Steady limit stream := by
  refine { follows := ?_, refused := ?_, final := ?_ }
  · intro more
    rcases body_or_stuck limit s.buffer with ⟨frame, rest, body, -⟩ | stuck
    · obtain ⟨left, grown⟩ := act_split_of_body body
      rw [left, grown, h.follows, bodies_of_body (split_append_of_body body more),
        List.append_assoc, List.singleton_append]
    · obtain ⟨left, same⟩ := act_split_of_stuck stuck
      rw [left, same, h.follows]
  · intro before length mem
    -- a refusal that is older than this split has made it a refusal too
    have now : (splitOff limit s.buffer).1 = .error length := by
      rcases List.mem_append.mp mem with older | this
      · exact h.refused before length older
      · exact (Prod.mk.inj (List.mem_singleton.mp this)).2.symm
    rw [(act_split_of_stuck (.inr ⟨length, splitOff_eq_error_iff.mp now⟩)).1]
    exact now
  · refine List.pairwise_append.mpr ⟨h.final, List.pairwise_singleton _ _, ?_⟩
    rintro ⟨before, outcome⟩ older later this length rfl
    rw [List.mem_singleton.mp this]
    exact h.refused before length older

end Steady

/-! ## Any use of a buffer -/

/-- What has come off is the front of what comes off the stream. -/
theorem Steady.frames_prefix {limit : Nat} {stream : Bytes} {s : Intake}
    (h : s.Steady limit stream) : s.frames <+: bodies limit stream := by
  have whole := h.follows []
  rw [List.append_nil, List.append_nil] at whole
  exact ⟨_, whole.symm⟩

/-- It is all of it once nothing comes off the buffer any more. -/
theorem Steady.frames_eq {limit : Nat} {stream : Bytes} {s : Intake}
    (h : s.Steady limit stream) (stuck : Stuck limit s.buffer) :
    s.frames = bodies limit stream := by
  have whole := h.follows []
  rw [List.append_nil, List.append_nil, bodies_of_stuck stuck, List.append_nil] at whole
  exact whole.symm

/-- **Nothing is lost, doubled or moved.** -/
theorem intact_after (actions : List Action) : (after actions).Intact (pushed actions) := by
  induction actions using List.reverseRecOn with
  | nil => exact intact_empty
  | append_singleton actions action ih =>
    rw [after_append, pushed_append]
    cases action with
    | push bytes =>
      rw [show pushed [.push bytes] = bytes from List.append_nil bytes]
      exact ih.push bytes
    | split limit =>
      rw [show pushed [.split limit] = [] from rfl, List.append_nil]
      exact ih.split limit

/-- **The stream settles what comes off.** -/
theorem steady_after {limit : Nat} {actions : List Action} (h : Limited limit actions) :
    (after actions).Steady limit (pushed actions) := by
  induction actions using List.reverseRecOn with
  | nil => exact steady_empty limit
  | append_singleton actions action ih =>
    have before := ih fun other mem => h other (List.mem_append_left _ mem)
    rw [after_append, pushed_append]
    cases action with
    | push bytes =>
      rw [show pushed [.push bytes] = bytes from List.append_nil bytes]
      exact before.push bytes
    | split other =>
      obtain rfl := h other (List.mem_append_right _ (List.mem_singleton_self _))
      rw [show pushed [.split other] = [] from rfl, List.append_nil]
      exact before.split

/-- **A buffer gives its stream, frame by frame.** After any pushes and splits the bytes pushed
are the frames that came off and then the buffer; a body is no longer than its split allowed;
and a split that gives nothing leaves the buffer as it is. With one limit for all splits the
bodies are the front of the longest row of frames that the whole stream begins with, and all of
it once a split gives nothing; and a refusal repeats itself from then on. -/
theorem after_intact_steady (actions : List Action) :
    (after actions).Intact (pushed actions) ∧
      (∀ limit, frame? (splitOff limit (after actions).buffer).1 = none →
        (splitOff limit (after actions).buffer).2 = (after actions).buffer ∧
          (after (actions ++ [.split limit])).buffer = (after actions).buffer) ∧
      ∀ limit, Limited limit actions →
        (after actions).Steady limit (pushed actions) ∧
          Longest limit (pushed actions) (bodies limit (pushed actions)) ∧
          (after actions).frames <+: bodies limit (pushed actions) ∧
          (frame? (splitOff limit (after actions).buffer).1 = none →
            (after actions).frames = bodies limit (pushed actions)) := by
  refine ⟨intact_after actions, ?_, ?_⟩
  · intro limit none
    have stuck := stuck_of_splitOff none
    refine ⟨(splitOff_of_stuck stuck).2, ?_⟩
    rw [after_append]
    exact (act_split_of_stuck stuck).1
  · intro limit limited
    have steady := steady_after limited
    exact ⟨steady, longest_bodies limit (pushed actions), steady.frames_prefix,
      fun none => steady.frames_eq (stuck_of_splitOff none)⟩

/-- An empty frame in two pieces, a frame of two bytes in two pieces, and one that is too long;
splits stand before, between and behind them. -/
def inPieces : List Action :=
  [.split 5, .push [0, 0], .split 5, .push [0, 0], .split 5, .push [0, 0, 0, 2, 7], .split 5,
    .push [8, 0, 0, 0, 9], .split 5, .split 5, .push [1], .split 5]

/-- The two frames come off, although the splits come too early at first; the third one is refused,
also when more of it is there. -/
theorem after_intact_steady_inPieces :
    Limited 5 inPieces ∧ (after inPieces).frames = [[], [7, 8]] ∧
      Longest 5 (pushed inPieces) (after inPieces).frames ∧
      (after inPieces).buffer = [0, 0, 0, 9, 1] ∧
      (after (inPieces ++ [.split 5])).buffer = [0, 0, 0, 9, 1] ∧
      (after inPieces).splits.Pairwise fun earlier later =>
        ∀ length, earlier.2 = .error length → later.2 = .error length := by
  have limited : Limited 5 inPieces := by
    intro other mem
    simpa [inPieces] using mem
  have frames : (after inPieces).frames = [[], [7, 8]] := by decide +kernel
  have buffer : (after inPieces).buffer = [0, 0, 0, 9, 1] := by decide +kernel
  have none : frame? (splitOff 5 (after inPieces).buffer).1 = none := by decide +kernel
  obtain ⟨-, unchanged, oneLimit⟩ := after_intact_steady inPieces
  obtain ⟨steady, longest, -, all⟩ := oneLimit 5 limited
  rw [← all none] at longest
  exact ⟨limited, frames, longest, buffer, (unchanged 5 none).2.trans buffer, steady.final⟩

end Intake

end LogBroker.Wire.Frame
