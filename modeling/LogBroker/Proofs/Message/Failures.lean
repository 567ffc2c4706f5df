import LogBroker.Proofs.Message.Grammar
import LogBroker.Proofs.Message.Structures
import LogBroker.Proofs.Wire.Accounts

/-!
# What the failure of a message says

Only the reader of request messages refuses anything: it takes a header, whatever api that names,
and goes no further if nobody serves the api. So a refusal tells where the input was left
(`RequestMessage.Refuses`), and what tells the same of the input is a refusal
(`RequestMessage.read_eq_refused_iff`). Every other failure comes from a reader of one value and
passes through unchanged.

Main statement: what an outcome says of the input is so, for every reader of the library
(`RequestMessage.failures_accounted`).
-/

namespace LogBroker

open Wire Layout Reader

/-! ## Refusals -/

theorem ApiKey.ofCode?_eq_none_iff {key : Int16} :
    ofCode? key = none ↔ key ≠ 1 ∧ key ≠ 18 ∧ key ≠ 75 := by
  unfold ofCode?
  split_ifs <;> simp [*]

/-- A number of two bytes begins with the higher one. -/
theorem Wire.Word.write_int16 (n : Int16) :
    ∃ high low : UInt8, Word.write n = [high, low] ∧
      n.toUInt16.toNat = 256 * high.toNat + low.toNat := by
  have bits : n.toUInt16.toNat < 65536 := n.toUInt16.toNat_lt
  refine ⟨.ofNat (n.toUInt16.toNat / 256), .ofNat (n.toUInt16.toNat / 1), rfl, ?_⟩
  rw [UInt8.toNat_ofNat', UInt8.toNat_ofNat']
  omega

/-- The number of the api stands in front of everything else. -/
theorem RequestHeader.Form.first {bytes : Bytes} {h : RequestHeader} (form : h.Form bytes) :
    ∃ behind, bytes = Word.write h.apiKey ++ behind := by
  obtain ⟨client, -, rfl⟩ := form
  refine ⟨Word.write h.apiVersion ++ Word.write h.correlationId ++ client ++ [0x00], ?_⟩
  simp only [List.append_assoc]

namespace RequestMessage

/-- The input `bs` begins with the header of a request to an api that nobody serves, and `left`
stands behind the header. -/
structure Refuses (bs : Bytes) (key : Int16) (left : Bytes) : Prop where
  /-- the number of the api is in the first two bytes, the higher one first -/
  first : ∃ high low behind, bs = high :: low :: behind ∧
    key.toUInt16.toNat = 256 * high.toNat + low.toNat
  /-- the broker serves no such api -/
  unserved : key ≠ 1 ∧ key ≠ 18 ∧ key ≠ 75
  /-- a header has been taken, and nothing behind it -/
  header : ∃ header, RequestHeader.layout.read bs = (.ok header, left)

/-- The header says in its first two bytes which api it names. -/
theorem first_of_read {bs left : Bytes} {header : RequestHeader}
    (h : RequestHeader.layout.read bs = (.ok header, left)) :
    ∃ high low behind, bs = high :: low :: behind ∧
      header.apiKey.toUInt16.toNat = 256 * high.toNat + low.toNat := by
  obtain ⟨bytes, rfl, form⟩ := (RequestHeader.accepts_read _ _ _).mp h
  obtain ⟨behind, rfl⟩ := form.first
  obtain ⟨high, low, two, value⟩ := Word.write_int16 header.apiKey
  exact ⟨high, low, behind ++ left, by rw [two]; rfl, value⟩

/-- A header that names no served api is refused. -/
theorem Refuses.of_read {bs left : Bytes} {header : RequestHeader}
    (h : RequestHeader.layout.read bs = (.ok header, left))
    (unserved : ApiKey.ofCode? header.apiKey = none) : Refuses bs header.apiKey left where
  first := first_of_read h
  unserved := ApiKey.ofCode?_eq_none_iff.mp unserved
  header := ⟨header, h⟩

/-- A refusal is of the api that the header names. -/
theorem Refuses.named {bs left : Bytes} {key : Int16} (h : Refuses bs key left) :
    ∃ header, RequestHeader.layout.read bs = (.ok header, left) ∧ header.apiKey = key := by
  obtain ⟨header, read⟩ := h.header
  obtain ⟨high, low, behind, rfl, value⟩ := h.first
  obtain ⟨_, _, _, same, value'⟩ := first_of_read read
  cases same
  have bits := UInt16.toNat_inj.mp (value'.trans value.symm)
  exact ⟨header, read, congrArg Int16.ofUInt16 bits⟩

/-- The reader of the messages to one api, which looks for no other. -/
theorem accounts_served (api : ApiKey) (header : RequestHeader) :
    Accounts (do
      let request ← Request.read api
      pure ({ header, request } : RequestMessage)) :=
  compositional_accounts.bind_pure (compositional_accounts.request api) _

/-- **What the outcome of reading a request says is so**, and a refusal is one. -/
theorem accounted_read (bs : Bytes) : Accounted (Refuses bs) bs (read bs) := by
  have first := compositional_accounts.layout RequestHeader.layout bs
  rcases h : RequestHeader.layout.read bs with ⟨e | header, mid⟩ <;> rw [h] at first
  · rw [read, bind_error h]
    exact first.error.mono fun never => never.elim
  · rw [read, bind_ok h]
    rcases unserved : ApiKey.ofCode? header.apiKey with _ | api
    · exact .refusal first.suffix (.of_read h unserved)
    · exact ((accounts_served api header mid).of_suffix first.suffix).mono fun never => never.elim

/-- **A request is refused just if its header names an api that nobody serves.** -/
theorem read_eq_refused_iff (bs : Bytes) (key : Int16) (left : Bytes) :
    read bs = (.error (.unsupportedRequest key), left) ↔ Refuses bs key left := by
  constructor
  · intro h
    have accounted := accounted_read bs
    rw [h] at accounted
    exact accounted.refused rfl
  · intro refuses
    obtain ⟨header, named, rfl⟩ := refuses.named
    have unserved := ApiKey.ofCode?_eq_none_iff.mpr refuses.unserved
    rw [read, bind_ok named]
    simp only [unserved, fail_apply]

/-- A header that is whole, and names no api at all. -/
example : read ([0xff, 0xff, 0, 4, 0, 0, 0, 7, 0, 1, 0x61, 0] ++ [0xab]) =
    (.error (.unsupportedRequest (-1)), [0xab]) := by
  decide +kernel

/-- **Failures account for every byte.** Of every reader of a value, of a collection, of a structure
or of a message, and of every input: what is left is the end of the input; a length that is missing
is missing from what is left; a byte that is wrong was the last one taken. -/
theorem failures_accounted :
    (∀ n, (take n).Accounts ∧ (ensure n).Accounts) ∧
      (∀ {α : Type} (p : Primitive α), p.read.Accounts) ∧
      (∀ {α : Type} (l : Layout α), l.read.Accounts) ∧
      (∀ {α : Type} (s : Structure α), s.codec.read.Accounts) ∧
      (∀ api, (ResponseMessage.read api).Accounts) ∧
      (∀ bs, Accounted (Refuses bs) bs (read bs)) ∧
      ∀ bs key left, read bs = (.error (.unsupportedRequest key), left) ↔ Refuses bs key left :=
  ⟨fun n => ⟨accounts_take n, accounts_ensure n⟩, fun p => compositional_accounts.primitive p,
    fun l => compositional_accounts.layout l, fun s => compositional_accounts.structured s,
    fun api => compositional_accounts.responseMessage api, accounted_read, read_eq_refused_iff⟩

end RequestMessage

end LogBroker
