import LogBroker.Proofs.Message.RoundTrip
import LogBroker.Proofs.Message.Structures
import LogBroker.Proofs.Wire.Expansion

/-!
# Reading settles the form

Many inputs are read as the same structure. The one that is written is read as that structure
again, so writing what was read (`Codec.rewrite`) leads to one form of all these inputs and no
further. What could stand in the way is a length that has become too large for its
field. Text can grow, to three times the bytes at most, but from `2 ^ 30` bytes of input no
length of 32 bits overflows. Only the client's name in the header of a request has a length of
two bytes, and it must not have grown beyond it (`Structure.NamesFit`).

Main statement: `Structure.settles`, for every structure and for requests in frames.
-/

namespace LogBroker

open Wire Layout Reader

namespace Codec

variable {α : Type}

/-- The bytes as they are written again, if they can be read. -/
def rewrite (c : Codec α) (bs : Bytes) : Option Bytes := (c.read bs).1.toOption.map c.write

variable {c : Codec α} {a : α} {bs rest : Bytes}

theorem rewrite_of_read (h : c.read bs = (.ok a, rest)) : c.rewrite bs = some (c.write a) := by
  rw [rewrite, h]
  rfl

/-- What is read back is written again in the same bytes. -/
theorem rewrite_rewrite_of_takes (h : c.read bs = (.ok a, rest))
    (takes : c.read.Takes (c.write a) a) : (c.rewrite bs).bind c.rewrite = c.rewrite bs := by
  rw [rewrite_of_read h]
  exact rewrite_of_read takes.eq

end Codec

/-! ## Metadata records -/

namespace MetadataRecord

/-- What a record has to be for its bytes to say so: the name is not too long, and a record of
another type is not of one that is understood. -/
def Fits : MetadataRecord → Prop
  | topic name id => topicLayout.Fits (name, id)
  | partition _ _ => True
  | other type => type ≠ topicType ∧ type ≠ partitionType

theorem takes_write {m : MetadataRecord} (h : m.Fits) : read.Takes m.write m := by
  have envelope (fields : Int8 × Int8 × Int8) :
      envelopeLayout.read.Takes (envelopeLayout.write fields) fields :=
    envelopeLayout.takes_write ⟨trivial, trivial, trivial⟩
  cases m with
  | topic name id =>
    have fields : topicLayout.Fits (name, id) := h
    refine (envelope (1, topicType, 0)).bind ?_
    exact (topicLayout.takes_write fields).bind_pure fun fields => topic fields.1 fields.2
  | partition index topicId =>
    have fields : partitionLayout.Fits (index, topicId) := ⟨trivial, trivial⟩
    refine (envelope (1, partitionType, 1)).bind ?_
    exact (partitionLayout.takes_write fields).bind_pure fun fields => partition fields.1 fields.2
  | other type =>
    have taken : read.Takes (envelopeLayout.write (1, type, 0) ++ []) (other type) := by
      refine (envelope (1, type, 0)).bind ?_
      dsimp only
      rw [if_neg h.1, if_neg h.2]
      exact fun _ => rfl
    rwa [List.append_nil] at taken

/-- The envelope's versions are forgotten, and so is what stands behind an envelope of another
type. -/
theorem fits_of_read {bs rest : Bytes} {m : MetadataRecord} (small : bs.length ≤ 2 ^ 30)
    (h : read bs = (.ok m, rest)) : m.Fits := by
  obtain ⟨⟨_, type, _⟩, mid, henvelope, hfields⟩ := bind_eq_ok h
  have shorter := (envelopeLayout.forward_read bs).length_le
  rw [henvelope] at shorter
  dsimp only at hfields shorter
  split at hfields
  next =>
    obtain ⟨⟨name, id⟩, left, htopic, hp⟩ := bind_eq_ok hfields
    cases hp
    obtain ⟨bytes, rfl, formed⟩ := (topicLayout.accepts_read _ _ _).mp htopic
    rw [List.length_append] at shorter
    exact topicLayout.fits_of_form rfl formed (by omega)
  next noTopic =>
    split at hfields
    next =>
      obtain ⟨⟨index, topicId⟩, left, hpartition, hp⟩ := bind_eq_ok hfields
      cases hp
      trivial
    next noPartition =>
      cases hfields
      exact ⟨noTopic, noPartition⟩

end MetadataRecord

/-! ## Requests -/

/-- A request is read as one of the api that was asked, and makes three bytes of one at most. -/
theorem Request.of_read {api : ApiKey} {bs rest : Bytes} {r : Request}
    (h : read api bs = (.ok r, rest)) :
    r.api = api ∧ r.write.length + 3 * rest.length ≤ 3 * bs.length := by
  cases api with
  | apiVersions =>
    obtain ⟨r, hr, rfl⟩ := map_eq_ok h
    exact ⟨rfl, ApiVersionsRequest.layout.size_le_of_read hr⟩
  | fetch =>
    obtain ⟨r, hr, rfl⟩ := map_eq_ok h
    exact ⟨rfl, FetchRequest.layout.size_le_of_read hr⟩
  | describeTopicPartitions =>
    obtain ⟨r, hr, rfl⟩ := map_eq_ok h
    exact ⟨rfl, DescribeTopicPartitionsRequest.layout.size_le_of_read hr⟩

namespace RequestMessage

/-- Request messages in frames. -/
def frameCodec : Codec RequestMessage := ⟨readFrame, toFrame⟩

/-- A message that was read names the api of its request, and makes three bytes of one at most. -/
theorem of_read {bs rest : Bytes} {m : RequestMessage} (h : read bs = (.ok m, rest)) :
    m.header.apiKey = m.request.api.code ∧ m.write.length ≤ 3 * bs.length := by
  obtain ⟨header, mid, hheader, hbody⟩ := bind_eq_ok h
  have grown := RequestHeader.layout.size_le_of_read hheader
  rcases served : ApiKey.ofCode? header.apiKey with _ | api <;> rw [served] at hbody
  · cases hbody
  · obtain ⟨request, left, hrequest, hp⟩ := bind_eq_ok hbody
    cases hp
    obtain ⟨rfl, more⟩ := Request.of_read hrequest
    refine ⟨(ApiKey.code_of_ofCode? served).symm, ?_⟩
    rw [Layout.size] at grown
    show (RequestHeader.layout.write header ++ request.write).length ≤ 3 * bs.length
    rw [List.length_append]
    omega

/-- A message that was read from few bytes is read back from its frame, unless the client's name
has become too long. -/
theorem takes_toFrame_of_read {bs rest : Bytes} {m : RequestMessage} (small : bs.length ≤ 2 ^ 30)
    (h : read bs = (.ok m, rest)) (name : (Utf8.encode m.header.clientId).length ≤ 32767) :
    readFrame.Takes m.toFrame m := by
  obtain ⟨api, grown⟩ := of_read h
  have size : m.write.length < 2 ^ 32 := by omega
  exact Frame.takes_encode (takes_write ⟨api, name⟩ size) size

end RequestMessage

/-! ## All structures -/

namespace Structure

/-- The names in the structure are short enough for their lengths. Only in the header of a
request is this in question: there the length of a name has two bytes. -/
def NamesFit {α : Type} : Structure α → α → Prop
  | requestHeader => fun h => (Utf8.encode h.clientId).length ≤ 32767
  | _ => fun _ => True

/-- What was read from few bytes is read back when it is written. -/
theorem takes_write_of_read {α : Type} (s : Structure α) {bs rest : Bytes} {a : α}
    (small : bs.length ≤ 2 ^ 30) (h : s.codec.read bs = (.ok a, rest)) (names : s.NamesFit a) :
    s.codec.read.Takes (s.codec.write a) a := by
  cases s with
  | requestHeader => exact RequestHeader.takes_write a (Nat.lt_succ_of_le names)
  | metadataRecord => exact MetadataRecord.takes_write (MetadataRecord.fits_of_read small h)
  | _ => exact Layout.takes_write_of_read _ rfl small h

/-- **Reading settles the form.** Whatever form a structure had in an input of at most `2 ^ 30`
bytes, it is read back from the bytes that are written for it, in front of any others, and these
bytes are written again. The same is true of a request message that is written into a frame and
read from there. The client's name must be short enough for its length; no other condition is
needed. -/
theorem settles :
    (∀ {α : Type} (s : Structure α) (bs rest : Bytes) (a : α), bs.length ≤ 2 ^ 30 →
      s.codec.read bs = (.ok a, rest) → s.NamesFit a →
      (∀ more, s.codec.read (s.codec.write a ++ more) = (.ok a, more)) ∧
        (s.codec.rewrite bs).bind s.codec.rewrite = s.codec.rewrite bs) ∧
    (∀ (bs rest : Bytes) (m : RequestMessage), bs.length ≤ 2 ^ 30 →
      RequestMessage.read bs = (.ok m, rest) →
      (Utf8.encode m.header.clientId).length ≤ 32767 →
      (∀ more, RequestMessage.readFrame (m.toFrame ++ more) = (.ok m, more)) ∧
        RequestMessage.frameCodec.rewrite m.toFrame = some m.toFrame) := by
  constructor
  · intro α s bs rest a small h names
    have takes := s.takes_write_of_read small h names
    exact ⟨takes, Codec.rewrite_rewrite_of_takes h takes⟩
  · intro bs rest m small h name
    have takes := RequestMessage.takes_toFrame_of_read small h name
    exact ⟨takes, Codec.rewrite_of_read takes.eq⟩

/-- A described topic: its name is a byte that is no text, behind a length of two groups; the
broker's own is said with a seven; null stands for no partitions. -/
def oddTopic : Bytes :=
  [0, 0, 0x82, 0x00, 0xff] ++ Uuid.nil.toBytes ++ [7, 0, 0x80, 0, 0, 0, 0]

/-- The topic that is read there. -/
def replacedTopic : ResponseTopic :=
  { ResponseTopic.found "\ufffd" Uuid.nil [] with isInternal := true }

/-- Asks for the apis. The client's name is null, and the name of its software is no text. -/
def oddListing : Bytes := [0, 18, 0, 4, 0, 0, 0, 7, 0xff, 0xff, 0, 0x82, 0x00, 0xff, 0, 0]

/-- The message that is read there. -/
def replacedListing : RequestMessage where
  header := .forApi .apiVersions 4 7
  request := .apiVersions { clientSoftwareName := "\ufffd" }

/-- Three inputs that are written in other bytes: the topic, its name and its lengths with them;
a metadata record of unknown versions; and the message. -/
theorem settles_oddForms :
    (ResponseTopic.layout.read (ResponseTopic.layout.write replacedTopic ++ [9]) =
        (.ok replacedTopic, [9]) ∧
      ResponseTopic.layout.write replacedTopic ≠ oddTopic) ∧
    (MetadataRecord.read (MetadataRecord.write (.other 12) ++ [9]) = (.ok (.other 12), [9]) ∧
      MetadataRecord.write (.other 12) ≠ [5, 12, 5]) ∧
    RequestMessage.readFrame (replacedListing.toFrame ++ [9]) = (.ok replacedListing, [9]) := by
  obtain ⟨structures, messages⟩ := settles
  refine ⟨⟨?_, by decide +kernel⟩, ⟨?_, by decide +kernel⟩, ?_⟩
  · exact (structures responseTopic oddTopic [] replacedTopic (by decide +kernel)
      (by decide +kernel) trivial).1 [9]
  · exact (structures metadataRecord [5, 12, 5] [] (.other 12) (by decide +kernel)
      (by decide +kernel) trivial).1 [9]
  · exact (messages oddListing [] replacedListing (by decide +kernel) (by decide +kernel)
      (by decide +kernel)).1 [9]

end Structure

end LogBroker
