import TableQuery.Json.Reader
import TableQuery.Proofs.Text.Digits

/-!
# Whole numbers in documents

A document has no whole number of more than `maxDigits` digits, however deep it stands in arrays
and objects.
-/

namespace TableQuery.Json

open TableQuery.Text

/-- No whole number in the value has more than `maxDigits` digits. -/
inductive IsShort : Json → Prop
  | null : IsShort .null
  | bool (b : Bool) : IsShort (.bool b)
  | int {n : Int} (h : n.natAbs < 10 ^ maxDigits) : IsShort (.int n)
  | float (x : Binary64) : IsShort (.float x)
  | text (s : String) : IsShort (.text s)
  | array {items : List Json} (h : ∀ j ∈ items, IsShort j) : IsShort (.array items)
  | object {members : List (String × Json)} (h : ∀ m ∈ members, IsShort m.2) :
      IsShort (.object members)

theorem isShort_of_mem_words : ∀ w ∈ words, IsShort w.2 := by
  simp only [words, List.forall_mem_cons]
  exact ⟨.null, .bool _, .bool _, .float _, .float _, .float _, List.forall_mem_nil _⟩

theorem isAsciiDigit_of_mem_wholeDigits {s : List Char} {c : Char} (h : c ∈ wholeDigits s) :
    isAsciiDigit c = true := by
  unfold wholeDigits at h
  split at h
  · rw [List.mem_singleton.1 h]
    rfl
  · exact List.all_eq_true.1 List.all_takeWhile c h

theorem digitsValue_wholeDigits_lt {s : List Char} (h : ¬maxDigits < (wholeDigits s).length) :
    digitsValue (wholeDigits s) < 10 ^ maxDigits :=
  (digitsValue_lt fun _ => isAsciiDigit_of_mem_wholeDigits).trans_le
    (Nat.pow_le_pow_right (by decide) (Nat.le_of_not_lt h))

theorem isShort_of_readNumber {c after : Cursor} {j : Json} (h : readNumber c = .ok (j, after)) :
    IsShort j := by
  rw [readNumber] at h
  generalize (if ['-'].isPrefixOf c.rest then c.rest.drop 1 else c.rest) = body at h
  dsimp only at h
  split at h
  · cases h
  · split at h
    · split at h
      · cases h
      · next hlength =>
          have hlt := digitsValue_wholeDigits_lt hlength
          cases h
          refine .int ?_
          split <;> omega
    · cases h
      exact .float _

theorem isShort_of_readPlain {c after : Cursor} {j : Json} (h : readPlain c = .ok (j, after)) :
    IsShort j := by
  rw [readPlain] at h
  split at h
  · next hword =>
      cases h
      exact isShort_of_mem_words _ (List.mem_of_find?_eq_some hword)
  · exact isShort_of_readNumber h

theorem forall_putMember {P : Json → Prop} {value : Json} {members : List (String × Json)}
    (name : String) (hvalue : P value) (h : ∀ m ∈ members, P m.2) :
    ∀ m ∈ putMember name value members, P m.2 := by
  induction members with
  | nil => simpa [putMember] using hvalue
  | cons m members ih =>
      rw [List.forall_mem_cons] at h
      rw [putMember]
      split
      · exact List.forall_mem_cons.2 ⟨hvalue, h.2⟩
      · exact List.forall_mem_cons.2 ⟨h.1, ih h.2⟩

/-- What the readers of a depth give is short. -/
structure ReadsShort (fuel : Nat) : Prop where
  value {c after : Cursor} {j : Json} : readValue fuel c = .ok (j, after) → IsShort j
  items {acc : List Json} {c after : Cursor} {j : Json} (h : ∀ i ∈ acc, IsShort i) :
    readItems fuel acc c = .ok (j, after) → IsShort j
  members {members : List (String × Json)} {c after : Cursor} {j : Json}
    (h : ∀ m ∈ members, IsShort m.2) : readMembers fuel members c = .ok (j, after) → IsShort j

theorem readsShort_zero : ReadsShort 0 where
  value h := by cases h
  items _ h := by cases h
  members _ h := by cases h

section Step

variable {fuel : Nat} (hfuel : ReadsShort fuel) {c after : Cursor} {j : Json}
include hfuel

theorem isShort_of_readValue_succ (h : readValue (fuel + 1) c = .ok (j, after)) : IsShort j := by
  rw [readValue] at h
  split at h
  · split at h
    · cases h
    · cases h
      exact .text _
  · dsimp only at h
    split at h
    · cases h
      exact .array (List.forall_mem_nil _)
    · exact hfuel.items (List.forall_mem_nil _) h
  · dsimp only at h
    split at h
    · cases h
      exact .object (List.forall_mem_nil _)
    · exact hfuel.members (List.forall_mem_nil _) h
  · exact isShort_of_readPlain h

theorem isShort_of_readItems_succ {acc : List Json} (hacc : ∀ i ∈ acc, IsShort i)
    (h : readItems (fuel + 1) acc c = .ok (j, after)) : IsShort j := by
  rw [readItems] at h
  split at h
  · cases h
  · next hitem =>
      have hitems := List.forall_mem_cons.2 ⟨hfuel.value hitem, hacc⟩
      dsimp only at h
      split at h
      · cases h
        exact .array fun i hi => hitems i (List.mem_reverse.1 hi)
      · exact hfuel.items hitems h
      · cases h

theorem isShort_of_readMembers_succ {members : List (String × Json)}
    (hmembers : ∀ m ∈ members, IsShort m.2)
    (h : readMembers (fuel + 1) members c = .ok (j, after)) : IsShort j := by
  rw [readMembers] at h
  split at h
  · split at h
    · cases h
    · dsimp only at h
      split at h
      · split at h
        · cases h
        · next hvalue =>
            have hput (name : String) := forall_putMember name (hfuel.value hvalue) hmembers
            split at h
            · cases h
              exact .object (hput _)
            · exact hfuel.members (hput _) h
            · cases h
      · cases h
  · cases h

end Step

theorem readsShort (fuel : Nat) : ReadsShort fuel := by
  induction fuel with
  | zero => exact readsShort_zero
  | succ fuel ih =>
      exact ⟨isShort_of_readValue_succ ih, isShort_of_readItems_succ ih,
        isShort_of_readMembers_succ ih⟩

theorem isShort_of_read {s : String} {j : Json} (h : read s = .ok j) : IsShort j := by
  rw [read] at h
  dsimp only at h
  split at h
  · cases h
  · next hvalue =>
      split at h
      · cases h
        exact (readsShort _).value hvalue
      · cases h

theorem IsShort.of_lookup {members : List (String × Json)} (h : IsShort (.object members))
    {name : String} {j : Json} (hj : members.lookup name = some j) : IsShort j := by
  cases h with
  | object h =>
      obtain ⟨before, rest, hsplit, -⟩ := List.lookup_eq_some_iff.1 hj
      exact h (name, j) (by rw [hsplit]; simp)

end TableQuery.Json
