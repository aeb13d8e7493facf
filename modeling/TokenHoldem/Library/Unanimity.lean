import Mathlib.Data.Set.Basic

/-!
# Agreement by unanimity

Voters give values to slots; a certificate says that all of its members have
given its value to its slot. Two certificates of one slot agree as soon as they
have a member in common that gives no slot two values.
-/

namespace TokenHoldem.Library

variable {Voter Vote Certificate Slot Value : Type*}

/-- What a vote or a certificate is about. -/
structure Subject (Item Slot Value : Type*) where
  slot : Item → Slot
  value : Item → Value

variable (vote : Subject Vote Slot Value)

/-- A voter that has not given two values to one slot. -/
def VotesOnce (votes : Set Vote) : Prop :=
  ∀ x ∈ votes, ∀ y ∈ votes, vote.slot x = vote.slot y → vote.value x = vote.value y

/-- Some vote is for what the certificate is about. -/
def Backs (certificate : Subject Certificate Slot Value) (votes : Set Vote) (c : Certificate) :
    Prop :=
  ∃ x ∈ votes, vote.slot x = certificate.slot c ∧ vote.value x = certificate.value c

/-- Two certificates of one slot that one voter backs, who votes once, agree. -/
theorem VotesOnce.agree {vote : Subject Vote Slot Value}
    {certificate : Subject Certificate Slot Value} {votes : Set Vote}
    (once : VotesOnce vote votes) {c d : Certificate} (hc : Backs vote certificate votes c)
    (hd : Backs vote certificate votes d) (slot : certificate.slot c = certificate.slot d) :
    certificate.value c = certificate.value d := by
  obtain ⟨x, hx, hxslot, hxvalue⟩ := hc
  obtain ⟨y, hy, hyslot, hyvalue⟩ := hd
  calc certificate.value c = vote.value x := hxvalue.symm
    _ = vote.value y := once x hx y hy (hxslot.trans (slot.trans hyslot.symm))
    _ = certificate.value d := hyvalue

end TokenHoldem.Library
