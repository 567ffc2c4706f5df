import LogBroker.Wire.Error

/-!
# Readers

A reader takes a value off the front of a byte string. It answers with the value or
with the cause of its failure, and *in both cases* with the bytes that are left: what
was taken before a failure stays taken.

* `take`, `ensure`, `byte` are the only readers that look at the input. Those that need
  more bytes than there are fail with `underflow` and take nothing.
* `times` repeats a reader, for counted collections.
* `within` runs a reader on a piece of known length, so that it cannot see beyond it.

Every reader that the library builds is `Forward`: what it leaves is a suffix of its
input. A reader that `Advances` takes at least one byte when it succeeds; this is why
loops that read until the input is used up end.
-/

namespace LogBroker.Wire

/-- A reader of values of type `α`. -/
def Reader (α : Type) : Type := Bytes → Except DecodeError α × Bytes

namespace Reader

variable {α β : Type}

/-- Answer without reading. -/
protected def pure (a : α) : Reader α := fun bs => (.ok a, bs)

/-- Read with `r`, then go on with `f` from where `r` stopped. -/
protected def bind (r : Reader α) (f : α → Reader β) : Reader β := fun bs =>
  match r bs with
  | (.ok a, rest) => f a rest
  | (.error e, rest) => (.error e, rest)

/-- Give up without reading. -/
def fail (e : DecodeError) : Reader α := fun bs => (.error e, bs)

instance : Monad Reader where
  pure := Reader.pure
  bind := Reader.bind

instance : LawfulMonad Reader := LawfulMonad.mk' Reader
  (fun r => by
    funext bs
    show Reader.bind r Reader.pure bs = r bs
    rcases h : r bs with ⟨_ | a, rest⟩ <;> simp only [Reader.bind, Reader.pure, h])
  (fun _ _ => rfl)
  (fun r f g => by
    funext bs
    show Reader.bind (Reader.bind r f) g bs = Reader.bind r (fun a => Reader.bind (f a) g) bs
    rcases h : r bs with ⟨_ | a, rest⟩ <;> simp only [Reader.bind, h])

/-! ## Looking at the input -/

/-- The next `n` bytes. -/
def take (n : Nat) : Reader Bytes := fun bs =>
  let (taken, rest) := bs.splitAt n
  if taken.length = n then (.ok taken, rest) else (.error (.underflow n taken.length), bs)

/-- Succeeds, without taking anything, if `n` bytes are left. -/
def ensure (n : Nat) : Reader Unit := fun bs =>
  let available := (bs.splitAt n).1.length
  if available = n then (.ok (), bs) else (.error (.underflow n available), bs)

/-- The next byte. -/
def byte : Reader UInt8
  | [] => (.error (.underflow 1 0), [])
  | b :: rest => (.ok b, rest)

/-! ## Combining readers -/

/-- The loop of `times`; the values read so far are in `done`, last first. -/
def timesFrom (r : Reader α) : Nat → List α → Bytes → Except DecodeError (List α) × Bytes
  | 0, done, bs => (.ok done.reverse, bs)
  | n + 1, done, bs =>
    match r bs with
    | (.ok a, rest) => timesFrom r n (a :: done) rest
    | (.error e, rest) => (.error e, rest)

/-- Reads `n` values one after another; the first failure ends the reading. -/
def times (n : Nat) (r : Reader α) : Reader (List α) := timesFrom r n []

/-- Runs `r` on the next `n` bytes and on nothing else. They are taken as a whole,
whatever `r` does with them. -/
def within (n : Nat) (r : Reader α) : Reader α :=
  Reader.bind (take n) fun body => fun rest => ((r body).1, rest)

/-! ## Equations -/

@[simp] theorem pure_apply (a : α) (bs : Bytes) : (pure a : Reader α) bs = (.ok a, bs) := rfl

@[simp] theorem fail_apply (e : DecodeError) (bs : Bytes) :
    (fail e : Reader α) bs = (.error e, bs) := rfl

/-- Introduction for sequencing: the first reader succeeds. -/
theorem bind_ok {r : Reader α} {f : α → Reader β} {bs rest : Bytes} {a : α}
    (h : r bs = (.ok a, rest)) : (r >>= f) bs = f a rest := by
  show Reader.bind r f bs = f a rest
  simp only [Reader.bind, h]

/-- Introduction for sequencing: the first reader fails. -/
theorem bind_error {r : Reader α} {f : α → Reader β} {bs rest : Bytes} {e : DecodeError}
    (h : r bs = (.error e, rest)) : (r >>= f) bs = (.error e, rest) := by
  show Reader.bind r f bs = (.error e, rest)
  simp only [Reader.bind, h]

/-- Inversion for sequencing that succeeds. -/
theorem bind_eq_ok {r : Reader α} {f : α → Reader β} {bs rest : Bytes} {b : β}
    (h : (r >>= f) bs = (.ok b, rest)) :
    ∃ a mid, r bs = (.ok a, mid) ∧ f a mid = (.ok b, rest) := by
  rcases hr : r bs with ⟨_ | a, mid⟩
  · rw [bind_error hr] at h; cases h
  · exact ⟨a, mid, rfl, by rwa [bind_ok hr] at h⟩

/-- Inversion for an answer that something is done with. -/
theorem map_eq_ok {r : Reader α} {f : α → β} {bs rest : Bytes} {b : β}
    (h : (f <$> r) bs = (.ok b, rest)) : ∃ a, r bs = (.ok a, rest) ∧ f a = b := by
  rw [map_eq_pure_bind] at h
  obtain ⟨a, mid, ha, hb⟩ := bind_eq_ok h
  cases hb
  exact ⟨a, ha, rfl⟩

/-- `take` in terms of the input's length. -/
theorem take_eq (n : Nat) (bs : Bytes) :
    take n bs = if n ≤ bs.length then (.ok (bs.take n), bs.drop n)
      else (.error (.underflow n bs.length), bs) := by
  simp only [take, List.splitAt_eq, List.length_take]
  by_cases h : n ≤ bs.length
  · simp [h]
  · have : min n bs.length = bs.length := by omega
    simp [h, this]
    omega

/-- `ensure` in terms of the input's length. -/
theorem ensure_eq (n : Nat) (bs : Bytes) :
    ensure n bs = if n ≤ bs.length then (.ok (), bs)
      else (.error (.underflow n bs.length), bs) := by
  simp only [ensure, List.splitAt_eq, List.length_take]
  by_cases h : n ≤ bs.length
  · simp [h]
  · have : min n bs.length = bs.length := by omega
    simp [h, this]
    omega

/-! ## Going forward -/

/-- What the reader leaves, after success and after failure, is a suffix of its input. -/
def Forward (r : Reader α) : Prop := ∀ bs, (r bs).2 <:+ bs

/-- A success takes at least one byte. -/
def Advances (r : Reader α) : Prop :=
  ∀ ⦃bs rest : Bytes⦄ ⦃a : α⦄, r bs = (.ok a, rest) → rest.length < bs.length

theorem forward_pure (a : α) : Forward (pure a : Reader α) := fun bs => List.suffix_refl bs

theorem forward_fail (e : DecodeError) : Forward (fail e : Reader α) :=
  fun bs => List.suffix_refl bs

/-- Too few bytes are left as they are. -/
theorem forward_take (n : Nat) : Forward (take n) := by
  intro bs
  rw [take_eq]
  split
  · exact List.drop_suffix n bs
  · exact List.suffix_refl bs

theorem forward_byte : Forward byte
  | [] => List.suffix_refl []
  | b :: rest => List.suffix_cons b rest

/-- A suffix of a suffix is a suffix. -/
theorem Forward.bind {r : Reader α} {f : α → Reader β} (hr : Forward r)
    (hf : ∀ a, Forward (f a)) : Forward (r >>= f) := by
  intro bs
  have first := hr bs
  rcases h : r bs with ⟨_ | a, mid⟩
  · rw [bind_error h]; rwa [h] at first
  · rw [bind_ok h]; rw [h] at first
    exact (hf a mid).trans first

/-- A repetition goes forward as each of its steps does. -/
theorem Forward.timesFrom {r : Reader α} (hr : Forward r) :
    ∀ (n : Nat) (done : List α), Forward (Reader.timesFrom r n done)
  | 0, _, bs => List.suffix_refl bs
  | n + 1, done, bs => by
    have first := hr bs
    rcases h : r bs with ⟨_ | a, mid⟩ <;> rw [h] at first <;> simp only [Reader.timesFrom, h]
    · exact first
    · exact (Forward.timesFrom hr n (a :: done) mid).trans first

theorem Forward.times {r : Reader α} (hr : Forward r) (n : Nat) : Forward (Reader.times n r) :=
  hr.timesFrom n []

/-- A sequence takes what its first reader takes. -/
theorem Advances.bind {r : Reader α} {f : α → Reader β} (hr : Advances r)
    (hf : ∀ a, Forward (f a)) : Advances (r >>= f) := by
  intro bs rest b h
  obtain ⟨a, mid, hmid, hrest⟩ := bind_eq_ok h
  have first := hr hmid
  have second := (hf a mid).length_le
  rw [hrest] at second
  exact Nat.lt_of_le_of_lt second first

theorem advances_byte : Advances byte := by
  intro bs rest b h
  cases bs with
  | nil => cases h
  | cons c cs => cases h; exact Nat.lt_succ_self _

theorem advances_take {n : Nat} (hn : 0 < n) : Advances (take n) := by
  intro bs rest taken h
  rw [take_eq] at h
  split at h
  · cases h
    rw [List.length_drop]
    omega
  · cases h

end Reader

end LogBroker.Wire
