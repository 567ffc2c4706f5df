import LogBroker.Proofs.Wire.Composition
import LogBroker.Proofs.Wire.ReadBack

/-!
# What a reader decides

A reader that fails because its input has run out might do otherwise on a longer input. No
other result is open in that way: a reader is *decisive* if every other result rests on the
bytes that it took, and on nothing behind them. All layouts are read decisively
(`Layout.decisive_read`).

So what was read once is read again in front of any other bytes (`Decisive.takes`), and a
string that a reader takes is too short for it as soon as the end is missing
(`Decisive.ranOut_of_cut`).
-/

namespace LogBroker.Wire

namespace Reader

variable {α β : Type}

/-- The input ended before the value did. -/
def RanOut (result : Except DecodeError α) : Prop :=
  ∃ needed available, result = .error (.underflow needed available)

theorem not_ranOut_ok (a : α) : ¬ RanOut (.ok a : Except DecodeError α) := by
  rintro ⟨needed, available, h⟩
  cases h

/-- `r` reads `bytes`, all of them and nothing behind them, and comes to the result. -/
def Decides (r : Reader α) (bytes : Bytes) (result : Except DecodeError α) : Prop :=
  ∀ rest, r (bytes ++ rest) = (result, rest)

/-- Unless the input runs out, the bytes that `r` took decide what it answers. -/
def Decisive (r : Reader α) : Prop :=
  ∀ bs, ¬ RanOut (r bs).1 → ∃ bytes, bs = bytes ++ (r bs).2 ∧ r.Decides bytes (r bs).1

/-! ## What follows from it -/

section

variable {r : Reader α}

/-- The bytes that a value was read from are taken wherever they stand. -/
theorem Decisive.takes (hr : r.Decisive) {bs rest : Bytes} {a : α} (h : r bs = (.ok a, rest)) :
    ∃ bytes, bs = bytes ++ rest ∧ r.Takes bytes a := by
  have decided := hr bs
  rw [h] at decided
  exact decided (not_ranOut_ok a)

/-- A string that is taken is not taken without its end: the input has run out. -/
theorem Decisive.ranOut_of_cut (hr : r.Decisive) {cut more : Bytes} {a : α}
    (h : r.Takes (cut ++ more) a) (hm : more ≠ []) : RanOut (r cut).1 := by
  by_contra settled
  obtain ⟨bytes, hbytes, decided⟩ := hr cut settled
  -- what was left of the cut string would be left again, and the end behind it
  have again := decided ((r cut).2 ++ more)
  rw [← List.append_assoc, ← hbytes, h.eq] at again
  have left : [] = (r cut).2 ++ more := (Prod.mk.inj again).2
  exact hm (List.append_eq_nil_iff.mp left.symm).2

end

/-! ## The readers of the library -/

theorem decisive_pure (a : α) : Decisive (pure a : Reader α) :=
  fun _ _ => ⟨[], rfl, fun _ => rfl⟩

theorem decisive_fail (e : DecodeError) : Decisive (fail e : Reader α) :=
  fun _ _ => ⟨[], rfl, fun _ => rfl⟩

theorem decisive_byte : Decisive byte
  | [], h => absurd ⟨1, 0, rfl⟩ h
  | b :: _, _ => ⟨[b], rfl, takes_byte b⟩

theorem decisive_take (n : Nat) : Decisive (take n) := by
  intro bs h
  rw [take_eq] at h ⊢
  split
  next enough =>
    refine ⟨bs.take n, (List.take_append_drop n bs).symm, ?_⟩
    have taken := takes_take (bs.take n)
    rwa [List.length_take, Nat.min_eq_left enough] at taken
  next short =>
    rw [if_neg short] at h
    exact absurd ⟨n, bs.length, rfl⟩ h

/-- What two readers took one after the other decides what they answer in sequence. -/
theorem Decisive.bind {r : Reader α} {f : α → Reader β} (hr : r.Decisive)
    (hf : ∀ a, (f a).Decisive) : (r >>= f).Decisive := by
  intro bs h
  have first := hr bs
  rcases hread : r bs with ⟨e | a, mid⟩ <;> rw [hread] at first
  · rw [bind_error hread] at h ⊢
    have ended : ¬ RanOut (.error e : Except DecodeError α) := by
      rintro ⟨needed, available, he⟩
      cases he
      exact h ⟨needed, available, rfl⟩
    obtain ⟨bytes, hbytes, decided⟩ := first ended
    exact ⟨bytes, hbytes, fun rest => bind_error (decided rest)⟩
  · rw [bind_ok hread] at h ⊢
    obtain ⟨bytes, hbytes, decided⟩ := first (not_ranOut_ok a)
    obtain ⟨others, hothers, decided'⟩ := hf a mid h
    refine ⟨bytes ++ others, ?_, ?_⟩
    · rw [List.append_assoc, ← hothers, hbytes]
    · intro rest
      rw [List.append_assoc, bind_ok (decided (others ++ rest)), decided' rest]

/-- A marker is looked at when it has been taken. -/
theorem decisive_readMarker (m : Marker) : (Primitive.readMarker m).Decisive :=
  decisive_byte.bind fun b => by
    split
    · exact decisive_pure _
    · exact decisive_fail _

/-- What decides readers decides those that are made of them. -/
theorem compositional_decisive : Compositional @Decisive where
  holds_pure := decisive_pure
  holds_tooLong := decisive_fail _
  holds_byte := decisive_byte
  holds_take := decisive_take
  holds_marker := decisive_readMarker
  holds_bind := Decisive.bind

end Reader

/-- **All layouts are read decisively.** -/
theorem Layout.decisive_read {α : Type} (l : Layout α) : l.read.Decisive :=
  Reader.compositional_decisive.layout l

end LogBroker.Wire
