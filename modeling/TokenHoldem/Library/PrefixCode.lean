import TokenHoldem.Library.Wire

/-!
# Prefix codes

A value whose bytes tell where they end can be read off the front of a longer
byte string. Such codes compose: fields that are written one after the other are
read back one after the other, so no separator is needed between them.

* `PrefixCode.of_length` — a code of fixed width;
* `PrefixCode.prefixed` — bytes behind a code of their length;
* `PrefixCode.flatMap` — as many codes in a row as both sides agree on;
* `PrefixCode.flatMap_inj` — codes in a row that end with the string;
* `PrefixCode.append` — two fields.
-/

namespace TokenHoldem.Library

open List

variable {α β : Type*} {P : α → Prop} {Q : β → Prop} {code : α → Bytes} {other : β → Bytes}

/-- On the values that satisfy `P`, a code can be cut off the front of a byte
string, and in one way only. -/
def PrefixCode (P : α → Prop) (code : α → Bytes) : Prop :=
  ∀ ⦃a b⦄, P a → P b → ∀ ⦃s t : Bytes⦄, code a ++ s = code b ++ t → a = b ∧ s = t

namespace PrefixCode

theorem of_length {n : Nat} (hlength : ∀ a, (code a).length = n)
    (hinj : ∀ a b, P a → P b → code a = code b → a = b) : PrefixCode P code := by
  intro a b ha hb s t heq
  obtain ⟨hcode, hrest⟩ := append_inj heq ((hlength a).trans (hlength b).symm)
  exact ⟨hinj a b ha hb hcode, hrest⟩

/-- A code alone is its value. -/
theorem inj (hc : PrefixCode P code) {a b : α} (ha : P a) (hb : P b) (heq : code a = code b) :
    a = b :=
  (hc ha hb (by rw [append_nil, append_nil]; exact heq : code a ++ [] = code b ++ [])).1

theorem append (hc : PrefixCode P code) (ho : PrefixCode Q other) :
    PrefixCode (fun p : α × β => P p.1 ∧ Q p.2) fun p => code p.1 ++ other p.2 := by
  rintro ⟨a, c⟩ ⟨b, d⟩ ⟨ha, hc'⟩ ⟨hb, hd⟩ s t heq
  simp only [append_assoc] at heq
  obtain ⟨hab, hrest⟩ := hc ha hb heq
  obtain ⟨hcd, hend⟩ := ho hc' hd hrest
  exact ⟨Prod.ext hab hcd, hend⟩

/-- Lists of equal length, item after item. -/
theorem flatMap (hc : PrefixCode P code) {xs ys : List α} (hlength : xs.length = ys.length)
    (hx : ∀ x ∈ xs, P x) (hy : ∀ y ∈ ys, P y) {s t : Bytes}
    (heq : xs.flatMap code ++ s = ys.flatMap code ++ t) : xs = ys ∧ s = t := by
  induction xs generalizing ys with
  | nil =>
    obtain rfl : ys = [] := length_eq_zero_iff.mp hlength.symm
    exact ⟨rfl, heq⟩
  | cons x xs ih =>
    cases ys with
    | nil => cases hlength
    | cons y ys =>
      rw [flatMap_cons, flatMap_cons, append_assoc, append_assoc] at heq
      obtain ⟨hxy, hrest⟩ := hc (hx x mem_cons_self) (hy y mem_cons_self) heq
      obtain ⟨htail, hend⟩ := ih (Nat.succ.inj hlength) (fun x h => hx x (mem_cons_of_mem _ h))
        (fun y h => hy y (mem_cons_of_mem _ h)) hrest
      exact ⟨by rw [hxy, htail], hend⟩

/-- Lists of any length: where no code is empty, the string tells where they end. -/
theorem flatMap_inj (hc : PrefixCode P code) (nonempty : ∀ a, code a ≠ []) {xs ys : List α}
    (hx : ∀ x ∈ xs, P x) (hy : ∀ y ∈ ys, P y) (heq : xs.flatMap code = ys.flatMap code) :
    xs = ys := by
  induction xs generalizing ys with
  | nil =>
    cases ys with
    | nil => rfl
    | cons y ys => exact absurd (append_eq_nil_iff.mp heq.symm).1 (nonempty y)
  | cons x xs ih =>
    cases ys with
    | nil => exact absurd (append_eq_nil_iff.mp heq).1 (nonempty x)
    | cons y ys =>
      rw [flatMap_cons, flatMap_cons] at heq
      obtain ⟨hxy, hrest⟩ := hc (hx x mem_cons_self) (hy y mem_cons_self) heq
      have htail := ih (fun x h => hx x (mem_cons_of_mem _ h))
        (fun y h => hy y (mem_cons_of_mem _ h)) hrest
      rw [hxy, htail]

/-- Bytes behind a code of their length. -/
theorem prefixed {R : Nat → Prop} {length : Nat → Bytes} (hl : PrefixCode R length) :
    PrefixCode (fun bytes : Bytes => R bytes.length) fun bytes => length bytes.length ++ bytes := by
  intro a b ha hb s t heq
  simp only [append_assoc] at heq
  obtain ⟨hlength, heq⟩ := hl ha hb heq
  exact append_inj heq hlength

/-- A list behind a code of its length. -/
theorem counted {R : Nat → Prop} {count : Nat → Bytes} (hn : PrefixCode R count)
    (hc : PrefixCode P code) : PrefixCode (fun xs : List α => R xs.length ∧ ∀ x ∈ xs, P x)
      fun xs => count xs.length ++ xs.flatMap code := by
  rintro xs ys ⟨hxs, hx⟩ ⟨hys, hy⟩ s t heq
  simp only [append_assoc] at heq
  obtain ⟨hlength, heq⟩ := hn hxs hys heq
  exact hc.flatMap hlength hx hy heq

/-- A value is known by what it is encoded through. -/
theorem comap (hc : PrefixCode P code) {f : β → α} (hf : ∀ a b, Q a → Q b → f a = f b → a = b)
    (hP : ∀ b, Q b → P (f b)) : PrefixCode Q fun b => code (f b) := by
  intro a b ha hb s t heq
  obtain ⟨hab, heq⟩ := hc (hP a ha) (hP b hb) heq
  exact ⟨hf a b ha hb hab, heq⟩

/-- A number in a field that is wide enough. -/
theorem beBytes (width : Nat) : PrefixCode (· < 256 ^ width) (beBytes width) :=
  .of_length (length_beBytes width) fun _ _ => beBytes_inj

/-- A number in one byte. -/
theorem byte : PrefixCode (· < 256) fun n => [UInt8.ofNat n] := by
  refine .of_length (n := 1) (fun _ => rfl) fun a b ha hb heq => ?_
  have := congrArg UInt8.toNat (cons.inj heq).1
  rwa [UInt8.toNat_ofNat', UInt8.toNat_ofNat', Nat.mod_eq_of_lt ha, Nat.mod_eq_of_lt hb] at this

end PrefixCode

end TokenHoldem.Library
