import LogBroker.Proofs.Wire.Composition

/-!
# What a failure says

A reader that gives up says why, and leaves what it has not taken. The two agree: what was
missing is missing from the bytes that are left, and a byte that was wrong is the last one that
was taken (`Accounted`). This is so because a reader looks at the length of what is left before
it takes anything, and takes a marker before it looks at it.

What is so of the bytes that are left behind some others is so with these in front, and readers
in sequence stop where one of them does. So whatever is made of such readers is such a reader
(`Reader.compositional_accounts`).
-/

namespace LogBroker.Wire

variable {α β : Type}

/-- What the outcome of a reading says of the input `bs` is so. `Refused` is what a refused api
says of the bytes that are left. -/
structure Accounted (Refused : Int16 → Bytes → Prop) (bs : Bytes)
    (outcome : Except DecodeError α × Bytes) : Prop where
  /-- what is left is the end of the input -/
  suffix : outcome.2 <:+ bs
  /-- what is left is what there was, and it is not enough -/
  underflow : ∀ {needed available}, outcome.1 = .error (.underflow needed available) →
    available = outcome.2.length ∧ available < needed
  /-- the byte was taken last, and it is not the marker -/
  unexpected : ∀ {m found}, outcome.1 = .error (.unexpected m found) →
    found ≠ m.byte ∧ ∃ before, bs = before ++ found :: outcome.2
  /-- an api is refused for a reason -/
  refused : ∀ {key}, outcome.1 = .error (.unsupportedRequest key) → Refused key outcome.2

namespace Accounted

variable {Refused Refused' : Int16 → Bytes → Prop} {bs mid left : Bytes} {e : DecodeError}

/-- A success says nothing but that bytes have come off the front. -/
theorem ok {a : α} (suffix : left <:+ bs) :
    Accounted Refused bs ((.ok a, left) : Except DecodeError α × Bytes) where
  suffix := suffix
  underflow h := by cases h
  unexpected h := by cases h
  refused h := by cases h

/-- Bytes that are not there in full are not taken. -/
theorem short {n : Nat} (h : ¬ n ≤ bs.length) :
    Accounted Refused bs
      ((.error (.underflow n bs.length), bs) : Except DecodeError α × Bytes) where
  suffix := List.suffix_refl bs
  underflow same := by
    cases same
    exact ⟨rfl, Nat.lt_of_not_le h⟩
  unexpected same := by cases same
  refused same := by cases same

/-- Another byte than the marker has been taken. -/
theorem mismatch {m : Marker} {found : UInt8} (h : found ≠ m.byte) :
    Accounted Refused (found :: left)
      ((.error (.unexpected m found), left) : Except DecodeError α × Bytes) where
  suffix := List.suffix_cons found left
  underflow same := by cases same
  unexpected same := by
    cases same
    exact ⟨h, [], rfl⟩
  refused same := by cases same

/-- Nothing is taken for a refusal. -/
theorem refusal {key : Int16} (suffix : left <:+ bs) (refused : Refused key left) :
    Accounted Refused bs
      ((.error (.unsupportedRequest key), left) : Except DecodeError α × Bytes) where
  suffix := suffix
  underflow same := by cases same
  unexpected same := by cases same
  refused same := by
    cases same
    exact refused

/-- What a failure says does not depend on what was to be read. -/
theorem error (h : Accounted Refused bs ((.error e, left) : Except DecodeError α × Bytes)) :
    Accounted Refused bs ((.error e, left) : Except DecodeError β × Bytes) where
  suffix := h.suffix
  underflow same := h.underflow (congrArg Except.error (Except.error.inj same))
  unexpected same := h.unexpected (congrArg Except.error (Except.error.inj same))
  refused same := h.refused (congrArg Except.error (Except.error.inj same))

theorem mono {outcome : Except DecodeError α × Bytes} (h : Accounted Refused bs outcome)
    (weaker : ∀ {key}, Refused key outcome.2 → Refused' key outcome.2) :
    Accounted Refused' bs outcome where
  suffix := h.suffix
  underflow := h.underflow
  unexpected := h.unexpected
  refused same := weaker (h.refused same)

/-- What is so behind some bytes is so with them in front. -/
theorem of_suffix {outcome : Except DecodeError α × Bytes} (h : Accounted Refused mid outcome)
    (front : mid <:+ bs) : Accounted Refused bs outcome where
  suffix := h.suffix.trans front
  underflow := h.underflow
  unexpected same := by
    obtain ⟨other, before, whole⟩ := h.unexpected same
    obtain ⟨taken, rfl⟩ := front
    exact ⟨other, taken ++ before, by rw [whole, List.append_assoc]⟩
  refused := h.refused

end Accounted

namespace Reader

/-- Whatever the reader answers is so, and it refuses no api. -/
def Accounts (r : Reader α) : Prop := ∀ bs, Accounted (fun _ _ => False) bs (r bs)

theorem accounts_pure (a : α) : Accounts (pure a : Reader α) :=
  fun bs => .ok (List.suffix_refl bs)

/-- A number that is too long says nothing of the bytes. -/
theorem accounts_tooLong : Accounts (fail .varintTooLong : Reader α) := fun bs => {
  suffix := List.suffix_refl bs
  underflow := fun h => by cases h
  unexpected := fun h => by cases h
  refused := fun h => by cases h }

theorem accounts_take (n : Nat) : Accounts (take n) := by
  intro bs
  rw [take_eq]
  split
  next => exact .ok (List.drop_suffix n bs)
  next few => exact .short few

theorem accounts_ensure (n : Nat) : Accounts (ensure n) := by
  intro bs
  rw [ensure_eq]
  split
  next => exact .ok (List.suffix_refl bs)
  next few => exact .short few

theorem accounts_byte : Accounts byte
  | [] => .short (Nat.not_succ_le_zero 0)
  | b :: rest => .ok (List.suffix_cons b rest)

theorem accounts_readMarker (m : Marker) : (Primitive.readMarker m).Accounts
  | [] => .short (Nat.not_succ_le_zero 0)
  | b :: rest => by
    have taken : byte (b :: rest) = (.ok b, rest) := rfl
    rw [Primitive.readMarker, bind_ok taken]
    by_cases same : b = m.byte
    · rw [if_pos same, pure_apply]
      exact .ok (List.suffix_cons b rest)
    · rw [if_neg same, fail_apply]
      exact .mismatch same

/-- Readers in sequence say what the one says that has stopped. -/
theorem Accounts.bind {r : Reader α} {f : α → Reader β} (hr : r.Accounts)
    (hf : ∀ a, (f a).Accounts) : (r >>= f).Accounts := by
  intro bs
  have first := hr bs
  rcases h : r bs with ⟨e | a, mid⟩ <;> rw [h] at first
  · rw [bind_error h]
    exact first.error
  · rw [bind_ok h]
    exact (hf a mid).of_suffix first.suffix

/-- **What is made of readers that account for their bytes does so too.** -/
theorem compositional_accounts : Compositional @Accounts where
  holds_pure := accounts_pure
  holds_tooLong := accounts_tooLong
  holds_byte := accounts_byte
  holds_take := accounts_take
  holds_marker := accounts_readMarker
  holds_bind := Accounts.bind

end Reader

end LogBroker.Wire
