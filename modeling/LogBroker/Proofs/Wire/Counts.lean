import LogBroker.Proofs.Wire.Composition
import Mathlib.Algebra.Order.BigOperators.Group.List
import Mathlib.Algebra.Order.Ring.Nat

/-!
# Counts and the bytes behind them

A collection says in front how many elements it has, and it can say more than there are bytes for:
five bytes announce four billion elements. What keeps the count from mattering is that nothing is
read from no bytes.

* An answer is *paid for* if its reader takes at least as many bytes as it costs (`Reader.Pays`).
  Every value of a layout pays for its own least size and for each element that is anywhere in its
  collections (`Layout.pays_read`). An element brings at least one byte of its own, whatever its
  collections bring, so the levels add up.
* A reader that advances cannot go on for more steps than there are bytes: one step later at the
  latest it has failed (`Reader.Advances.failsWithin`), and the collection fails as it does. So a
  count that exceeds the bytes behind it is found out (`Reader.Advances.overcounted`).
-/

namespace LogBroker.Wire

variable {α β γ : Type}

namespace Reader

/-- What is made of readers that go forward goes forward, too. -/
theorem compositional_forward : Compositional @Forward where
  holds_pure := forward_pure
  holds_tooLong := forward_fail _
  holds_byte := forward_byte
  holds_take := forward_take
  holds_marker := Primitive.forward_readMarker
  holds_bind := Forward.bind

/-! ## What an answer costs -/

/-- An answer is read from no fewer bytes than it costs. -/
def Pays (r : Reader α) (cost : α → Nat) : Prop :=
  ∀ ⦃bs rest : Bytes⦄ ⦃a : α⦄, r bs = (.ok a, rest) → cost a + rest.length ≤ bs.length

section

variable {r : Reader α} {cost : α → Nat}

/-- Whatever is read was not longer before. -/
theorem Forward.pays (hr : r.Forward) : r.Pays fun _ => 0 := by
  intro bs rest a h
  have shorter := (hr bs).length_le
  rw [h] at shorter
  rwa [Nat.zero_add]

/-- A reader that takes something takes a byte. -/
theorem Advances.pays (hr : r.Advances) : r.Pays fun _ => 1 := by
  intro bs rest a h
  rw [Nat.add_comm]
  exact hr h

/-- Without an answer nothing is owed. -/
theorem pays_fail (e : DecodeError) : (fail e : Reader α).Pays cost := by
  rintro bs rest a ⟨⟩

theorem pays_take (n : Nat) : (take n).Pays fun _ => n := by
  intro bs rest bytes h
  rw [take_eq] at h
  split at h
  next enough =>
    cases h
    show n + (bs.drop n).length ≤ bs.length
    rw [List.length_drop]
    omega
  next => cases h

/-- What is paid for more is paid for less. -/
theorem Pays.mono (hr : r.Pays cost) {less : α → Nat} (h : ∀ a, less a ≤ cost a) :
    r.Pays less :=
  fun _ _ a read => Nat.le_trans (Nat.add_le_add_right (h a) _) (hr read)

/-- What is done with an answer takes no bytes, so it must not cost more. -/
theorem Pays.bind_pure (hr : r.Pays cost) {f : α → β} {total : β → Nat}
    (h : ∀ a, total (f a) ≤ cost a) : (r >>= fun a => pure (f a)).Pays total := by
  intro bs rest b read
  obtain ⟨a, mid, ha, hp⟩ := bind_eq_ok read
  cases hp
  exact hr.mono h ha

/-- What is done with an answer takes nothing. -/
theorem Pays.map (hr : r.Pays cost) {f : α → β} {total : β → Nat}
    (h : ∀ a, total (f a) ≤ cost a) : (f <$> r).Pays total := by
  rw [map_eq_pure_bind]
  exact hr.bind_pure h

/-- The bytes of a prefix pay for an amount that does not depend on it. -/
theorem Pays.bind {k : Nat} {f : α → Reader β} {cost' total : β → Nat} (hr : r.Pays fun _ => k)
    (hf : ∀ a, (f a).Pays cost') (h : ∀ b, total b ≤ k + cost' b) : (r >>= f).Pays total := by
  intro bs rest b read
  obtain ⟨a, mid, ha, hb⟩ := bind_eq_ok read
  have first : k + mid.length ≤ bs.length := hr ha
  have second := hf a hb
  have sum := h b
  omega

/-- What has been paid for in front is paid for, whatever comes behind. -/
theorem Pays.front {k : Nat} {f : α → Reader β} (hr : r.Pays fun _ => k)
    (hf : ∀ a, (f a).Forward) : (r >>= f).Pays fun _ => k :=
  hr.bind (fun a => (hf a).pays) fun _ => Nat.le_refl k

/-- What is paid for behind is paid for, whatever comes in front. -/
theorem Pays.behind {s : Reader β} {f : β → Reader α} (hs : s.Forward)
    (hf : ∀ b, (f b).Pays cost) : (s >>= f).Pays cost :=
  hs.pays.bind hf fun a => Nat.le_of_eq (Nat.zero_add (cost a)).symm

/-- Two answers pay for what is made of them. -/
theorem Pays.pair {s : Reader β} {cost' : β → Nat} {f : α → β → γ} {total : γ → Nat}
    (hr : r.Pays cost) (hs : s.Pays cost') (h : ∀ a b, total (f a b) ≤ cost a + cost' b) :
    (r >>= fun a => s >>= fun b => pure (f a b)).Pays total := by
  intro bs rest c read
  obtain ⟨a, mid, ha, hmid⟩ := bind_eq_ok read
  obtain ⟨b, left, hb, hp⟩ := bind_eq_ok hmid
  cases hp
  have first := hr ha
  have second := hs hb
  have sum := h a b
  omega

/-- Each of the values pays for itself. -/
theorem Pays.times (hr : r.Pays cost) (n : Nat) :
    (Reader.times n r).Pays fun as => (as.map cost).sum := by
  induction n with
  | zero =>
    rw [times_zero]
    rintro bs rest as ⟨⟩
    exact Nat.le_of_eq (Nat.zero_add _)
  | succ n ih =>
    rw [times_succ]
    exact hr.pair ih fun a as => Nat.le_of_eq List.sum_cons

end

/-! ## Loops that must fail -/

/-- If `r` is run again and again, off the front of `bs`, it fails in one of the first `steps`
runs, for the cause `e` and before the bytes `left`. -/
inductive FailsWithin (r : Reader α) :
    (steps : Nat) → (bs : Bytes) → DecodeError → (left : Bytes) → Prop where
  /-- this run fails -/
  | now {steps : Nat} {bs left : Bytes} {e : DecodeError} (h : r bs = (.error e, left)) :
      FailsWithin r (steps + 1) bs e left
  /-- this run reads a value, and a later one fails -/
  | later {steps : Nat} {bs rest left : Bytes} {a : α} {e : DecodeError} (h : r bs = (.ok a, rest))
      (fails : FailsWithin r steps rest e left) : FailsWithin r (steps + 1) bs e left

section

variable {r : Reader α} {bs rest left : Bytes} {n steps : Nat} {e : DecodeError}

/-- A repetition that goes on for so long fails as the run does. -/
theorem FailsWithin.times (fails : r.FailsWithin steps bs e left) (h : steps ≤ n) :
    Reader.times n r bs = (.error e, left) := by
  induction fails generalizing n with
  | now failed =>
    obtain ⟨m, rfl⟩ := Nat.exists_eq_add_of_le' h
    rw [← Nat.add_assoc, times_succ, bind_error failed]
  | later read _ ih =>
    obtain ⟨m, rfl⟩ := Nat.exists_eq_add_of_le' h
    rw [← Nat.add_assoc, times_succ, bind_ok read, bind_error (ih (Nat.le_add_left _ m))]

/-- **A reader that advances runs out of bytes**, and it fails with the last of them at the
latest. -/
theorem Advances.failsWithin (hr : r.Advances) (h : bs.length < steps) :
    ∃ e left, r.FailsWithin steps bs e left := by
  induction steps generalizing bs with
  | zero => exact absurd h (Nat.not_lt_zero _)
  | succ steps ih =>
    rcases read : r bs with ⟨e | a, rest⟩
    · exact ⟨e, rest, .now read⟩
    · have shorter := hr read
      obtain ⟨e, left, fails⟩ := ih (Nat.lt_of_lt_of_le shorter (Nat.le_of_lt_succ h))
      exact ⟨e, left, .later read fails⟩

/-- **A count of more elements than there are bytes is found out** before it is reached: the
collection fails as one of the first elements does. -/
theorem Advances.overcounted (hr : r.Advances) {count : Reader Nat}
    (declared : count bs = (.ok n, rest)) (h : rest.length < n) :
    ∃ e left, r.FailsWithin (rest.length + 1) rest e left ∧
      (count >>= fun n => Reader.times n r) bs = (.error e, left) := by
  obtain ⟨e, left, fails⟩ := hr.failsWithin (Nat.lt_succ_self rest.length)
  refine ⟨e, left, fails, ?_⟩
  rw [bind_ok declared, fails.times h]

end

end Reader

open Reader

/-! ## Single values -/

theorem Word.pays_read [Word α] : (Word.read : Reader α).Pays fun _ => Word.width α :=
  (pays_take _).front fun _ => forward_pure _

theorem Prefixed.pays_readLength32 : readLength32.Pays fun _ => 4 :=
  Word.pays_read.front fun _ => forward_pure _

theorem Prefixed.pays_readLength16 : readLength16.Pays fun _ => 2 :=
  Word.pays_read.front fun _ => forward_pure _

/-- A value takes at least so many bytes. -/
def Primitive.minSize {α : Type} : Primitive α → Nat
  | uint8 | int8 | bool => 1
  | int16 => 2
  | int32 | uint32 => 4
  | int64 => 8
  | uuid => Uuid.width
  | bytes => 4
  | nullableString => 2
  | unsignedVarint | unsignedVarlong | varint | varlong => 1
  | compactString | nullableBytes | marker _ => 1

theorem Primitive.minSize_pos {α : Type} (p : Primitive α) : 0 < p.minSize := by
  cases p <;> simp [minSize, Uuid.width]

/-- Each primitive takes its least size. -/
theorem Primitive.pays_read {α : Type} (p : Primitive α) : p.read.Pays fun _ => p.minSize := by
  cases p with
  | uint8 | int8 | int16 | int32 | uint32 | int64 | uuid => exact Word.pays_read
  | bool => exact Word.pays_read.front fun _ => forward_pure _
  | bytes => exact Prefixed.pays_readLength32.front forward_take
  | nullableString =>
    exact (Prefixed.pays_readLength16.front forward_take).front fun _ => forward_pure _
  | unsignedVarint | unsignedVarlong | varint | varlong => exact (advances_read _).pays
  | compactString | nullableBytes | marker _ => exact (advances_read _).pays

/-! ## Structures -/

/-- The elements of a collection, and those in them. -/
def nested (inner : α → Nat) (as : List α) : Nat := as.length + (as.map inner).sum

/-- Elements that have no collections count as one each. -/
@[simp] theorem nested_zero (as : List α) : nested (fun _ => 0) as = as.length := by
  rw [nested, List.map_const', List.sum_replicate_nat, Nat.mul_zero, Nat.add_zero]

/-- What takes a byte for itself pays for being an element. -/
theorem nested_le {k : Nat} (hk : 0 < k) (inner : α → Nat) (as : List α) :
    nested inner as ≤ (as.map fun a => k + inner a).sum :=
  calc nested inner as = (as.map fun a => 1 + inner a).sum := by
        rw [nested, List.sum_map_add, List.map_const', List.sum_replicate_nat, Nat.mul_one]
    _ ≤ (as.map fun a => k + inner a).sum :=
        List.sum_le_sum fun a _ => Nat.add_le_add_right hk (inner a)

namespace Layout

/-- A value takes at least so many bytes. -/
def minSize {α : Type} : Layout α → Nat
  | primitive p => p.minSize
  | andThen first second => first.minSize + second.minSize
  | packed fields _ => fields.minSize
  | array _ => 4
  | compactArray _ => 1

/-- How many elements the collections of a value have, on all levels together. -/
@[simp] def elementCount {α : Type} : Layout α → α → Nat
  | primitive _ => fun _ => 0
  | andThen first second => fun ab => first.elementCount ab.1 + second.elementCount ab.2
  | packed fields packing => fun b => fields.elementCount (packing.fields b)
  | array element | compactArray element => nested element.elementCount

@[simp] theorem elementCount_closedBy (l : Layout α) (m : Marker) :
    (l.closedBy m).elementCount = l.elementCount := rfl

@[simp] theorem elementCount_tagged (l : Layout α) : l.tagged.elementCount = l.elementCount := rfl

/-- Every layout takes a byte at least, a collection for its count. -/
theorem minSize_pos {α : Type} : (l : Layout α) → 0 < l.minSize
  | primitive p => p.minSize_pos
  | andThen first _ => Nat.add_pos_left first.minSize_pos _
  | packed fields _ => fields.minSize_pos
  | array _ => Nat.succ_pos 3
  | compactArray _ => Nat.succ_pos 0

/-- **Elements are paid for in bytes.** The induction is on the layout: each element of a
collection takes its own least size, which is not zero, on top of what the elements in it take. -/
theorem pays_read {α : Type} (l : Layout α) :
    l.read.Pays fun a => l.minSize + l.elementCount a := by
  induction l with
  | primitive p => exact p.pays_read
  | andThen first second ih₁ ih₂ =>
    refine ih₁.pair ih₂ fun a b => ?_
    simp only [minSize, elementCount]
    omega
  | packed fields packing ih =>
    refine ih.bind_pure fun a => ?_
    simp only [minSize, elementCount, packing.fields_pack, Nat.le_refl]
  | array element ih =>
    refine Prefixed.pays_readLength32.bind (fun n => ih.times n) fun as => ?_
    exact Nat.add_le_add_left (nested_le element.minSize_pos _ as) 4
  | compactArray element ih =>
    refine Prefixed.advances_readCompactLength.pays.bind (fun n => ih.times n) fun as => ?_
    exact Nat.add_le_add_left (nested_le element.minSize_pos _ as) 1

/-- A value is read from at least as many bytes as there are elements in it, however these are
counted. -/
theorem pays_elements (l : Layout α) {count : α → Nat} (h : l.elementCount = count) :
    l.read.Pays count := by
  rw [← h]
  exact l.pays_read.mono fun _ => Nat.le_add_left _ _

end Layout

end LogBroker.Wire
