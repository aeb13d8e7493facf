import TokenHoldem.FieldCodes
import TokenHoldem.MentalPoker.Engine

/-!
# What a transcript binds

`ProtocolTranscript` feeds its hasher one record after the other: the kind of the event and
the two byte fields of its packet, each behind its length. There is no count and no mark
at the end, and none is needed: a record tells where it ends, and none is empty.

- `TranscriptCall.code` — a record can be cut off the front of the stream;
- `transcripts_bind_calls` — the stream determines the calls, and so does its hash.
-/

namespace TokenHoldem

open Library

/-- A call of `ProtocolTranscript`. -/
inductive TranscriptCall where
  | appendKey (announcement : KeyAnnouncement)
  | appendShuffle (packet : ShufflePacket)
  | appendRevealShare (packet : RevealSharePacket)
deriving DecidableEq

namespace TranscriptCall

def run (transcript : ProtocolTranscript) : TranscriptCall → ProtocolTranscript
  | .appendKey announcement => transcript.appendKey announcement
  | .appendShuffle packet => transcript.appendShuffle packet
  | .appendRevealShare packet => transcript.appendRevealShare packet

/-- The kind of the event. -/
def eventType : TranscriptCall → Bytes
  | .appendKey _ => textBytes "key"
  | .appendShuffle _ => textBytes "shuffle"
  | .appendRevealShare _ => textBytes "reveal"

/-- The two byte fields of the packet. -/
def parts : TranscriptCall → Bytes × Bytes
  | .appendKey announcement => (announcement.publicKey, announcement.ownershipProof)
  | .appendShuffle packet => (packet.deck, packet.proof)
  | .appendRevealShare packet => (packet.token, packet.proof)

/-- What a call feeds to the hasher. -/
def record (call : TranscriptCall) : Bytes :=
  writeBytes call.eventType ++ (writeBytes call.parts.1 ++ writeBytes call.parts.2)

theorem fed_run (transcript : ProtocolTranscript) (call : TranscriptCall) :
    (call.run transcript).fed = transcript.fed ++ call.record := by
  cases call <;> simp [run, ProtocolTranscript.appendKey, ProtocolTranscript.appendShuffle,
    ProtocolTranscript.appendRevealShare, ProtocolTranscript.appendParts, record, eventType, parts]

/-- The byte fields are shorter than `2 ^ 32`. -/
def Fits (call : TranscriptCall) : Prop :=
  call.parts.1.length < 2 ^ 32 ∧ call.parts.2.length < 2 ^ 32
deriving Decidable

theorem length_eventType_lt (call : TranscriptCall) : call.eventType.length < 2 ^ 32 := by
  have hkey : (textBytes "key").length < 2 ^ 32 := by decide +kernel
  have hshuffle : (textBytes "shuffle").length < 2 ^ 32 := by decide +kernel
  have hreveal : (textBytes "reveal").length < 2 ^ 32 := by decide +kernel
  cases call with
  | appendKey => exact hkey
  | appendShuffle => exact hshuffle
  | appendRevealShare => exact hreveal

/-- The kind of the event and the fields make the call. -/
theorem eq_of_parts {a b : TranscriptCall} (kind : a.eventType = b.eventType)
    (fields : a.parts = b.parts) : a = b := by
  have hkeyShuffle : textBytes "key" ≠ textBytes "shuffle" := by decide +kernel
  have hkeyReveal : textBytes "key" ≠ textBytes "reveal" := by decide +kernel
  have hshuffleReveal : textBytes "shuffle" ≠ textBytes "reveal" := by decide +kernel
  cases a with
  | appendKey a =>
    cases b with
    | appendKey b =>
      obtain ⟨hkey, hproof⟩ := Prod.mk.inj fields
      exact congrArg _ (by cases a; cases b; simp_all)
    | appendShuffle => exact absurd kind hkeyShuffle
    | appendRevealShare => exact absurd kind hkeyReveal
  | appendShuffle a =>
    cases b with
    | appendKey => exact absurd kind.symm hkeyShuffle
    | appendShuffle b =>
      obtain ⟨hdeck, hproof⟩ := Prod.mk.inj fields
      exact congrArg _ (by cases a; cases b; simp_all)
    | appendRevealShare => exact absurd kind hshuffleReveal
  | appendRevealShare a =>
    cases b with
    | appendKey => exact absurd kind.symm hkeyReveal
    | appendShuffle => exact absurd kind.symm hshuffleReveal
    | appendRevealShare b =>
      obtain ⟨htoken, hproof⟩ := Prod.mk.inj fields
      exact congrArg _ (by cases a; cases b; simp_all)

/-- A record can be cut off the front of a stream in one way only. -/
theorem code : PrefixCode Fits record :=
  (writtenBytesCode.append (writtenBytesCode.append writtenBytesCode)).comap
    (f := fun call : TranscriptCall => (call.eventType, call.parts))
    (fun _ _ _ _ heq => eq_of_parts (congrArg Prod.fst heq) (congrArg Prod.snd heq))
    fun call fits => ⟨call.length_eventType_lt, fits⟩

theorem record_ne_nil (call : TranscriptCall) : call.record ≠ [] := by
  intro h
  have hlength := congrArg List.length h
  simp [record, writeBytes] at hlength

end TranscriptCall

namespace ProtocolTranscript

/-- The transcript after a sequence of calls. -/
def replay (calls : List TranscriptCall) : ProtocolTranscript :=
  calls.foldl TranscriptCall.run empty

/-- A run of calls feeds their records one after the other. -/
theorem fed_foldl (calls : List TranscriptCall) (transcript : ProtocolTranscript) :
    (calls.foldl TranscriptCall.run transcript).fed =
      transcript.fed ++ calls.flatMap TranscriptCall.record := by
  induction calls generalizing transcript with
  | nil => simp
  | cons call calls ih =>
    rw [List.foldl_cons, ih, TranscriptCall.fed_run, List.flatMap_cons, List.append_assoc]

/-- Two sequences of calls that feed the same bytes are the same; so are two whose hashes
are equal, unless these are a collision. -/
theorem transcripts_bind_calls {calls calls' : List TranscriptCall}
    (fits : ∀ call ∈ calls, call.Fits) (fits' : ∀ call ∈ calls', call.Fits) :
    ((replay calls).fed = (replay calls').fed → calls = calls') ∧
      ∀ P : Primitives,
        (P.hash (replay calls).fed = P.hash (replay calls').fed →
          (replay calls).fed = (replay calls').fed) →
        (replay calls).hash P = (replay calls').hash P → calls = calls' := by
  have hstream : (replay calls).fed = (replay calls').fed → calls = calls' := by
    intro hfed
    rw [replay, replay, fed_foldl, fed_foldl] at hfed
    exact TranscriptCall.code.flatMap_inj TranscriptCall.record_ne_nil fits fits'
      (List.append_cancel_left hfed)
  exact ⟨hstream, fun P collisionFree hhash => hstream (collisionFree hhash)⟩

/-- Two transcripts that differ in where a field ends. -/
theorem transcripts_bind_split :
    (replay [.appendKey ⟨[1], [2]⟩, .appendShuffle ⟨[], []⟩]).fed ≠
      (replay [.appendKey ⟨[1, 2], []⟩, .appendShuffle ⟨[], []⟩]).fed :=
  fun h => absurd ((transcripts_bind_calls (by decide) (by decide)).1 h) (by decide)

end ProtocolTranscript

end TokenHoldem
