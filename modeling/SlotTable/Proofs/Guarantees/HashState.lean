import SlotTable.Proofs.Hash.Fnv1a

/-!
# A running hash keeps two states apart

Writing a string of bytes is a permutation of the states, so two different states stay different
whatever is written into both: hashes differ behind a common ending if and only if they differed
before it. One changed byte leads to different states, so it always shows in the hash.
-/
namespace SlotTable

/-- Strings of one length that differ at one position only are the same before it and after it. -/
theorem exists_split_of_one_difference {A : Type} {first second : List A}
    (length : first.length = second.length)
    (one : ∃! position : Nat, first[position]? ≠ second[position]?) :
    ∃ front a b back, first = front ++ a :: back ∧ second = front ++ b :: back ∧ a ≠ b := by
  obtain ⟨position, differs, only⟩ := one
  have same : ∀ other, other ≠ position → first[other]? = second[other]? := by
    intro other apart
    by_contra different
    exact apart (only other different)
  have inside : position < first.length := by
    by_contra outside
    apply differs
    rw [List.getElem?_eq_none (by omega), List.getElem?_eq_none (by omega)]
  have insideSecond : position < second.length := by omega
  have front : second.take position = first.take position := by
    apply List.ext_getElem?
    intro index
    by_cases before : index < position
    · rw [List.getElem?_take_of_lt before, List.getElem?_take_of_lt before, same index (by omega)]
    · rw [List.getElem?_take_eq_none (by omega), List.getElem?_take_eq_none (by omega)]
  have back : second.drop (position + 1) = first.drop (position + 1) := by
    apply List.ext_getElem?
    intro index
    rw [List.getElem?_drop, List.getElem?_drop, same _ (by omega)]
  refine ⟨first.take position, first[position], second[position], first.drop (position + 1),
    ?_, ?_, ?_⟩
  · rw [← List.drop_eq_getElem_cons inside, List.take_append_drop]
  · rw [← front, ← back, ← List.drop_eq_getElem_cons insideSecond, List.take_append_drop]
  · intro equal
    apply differs
    rw [List.getElem?_eq_getElem inside, List.getElem?_eq_getElem insideSecond, equal]

namespace Fnv1a

theorem finish_write_inj {hasher other : Fnv1a} (bytes : Bytes) :
    (hasher.write bytes).finish = (other.write bytes).finish ↔ hasher.finish = other.finish := by
  constructor
  · intro equal
    have states : hasher.write bytes = other.write bytes := congrArg mk equal
    exact congrArg finish ((writing bytes).injective states)
  · intro equal
    have states : hasher = other := congrArg mk equal
    rw [states]

theorem digest_append_inj (x y suffix : Bytes) :
    digest (x ++ suffix) = digest (y ++ suffix) ↔ digest x = digest y := by
  rw [digest_append, digest_append]
  exact finish_write_inj suffix

theorem digest_ne_of_changed_byte (front back : Bytes) {a b : UInt8} (different : a ≠ b) :
    digest (front ++ a :: back) ≠ digest (front ++ b :: back) := by
  intro equal
  rw [List.append_cons, List.append_cons front b, digest_append_inj, digest_append,
    digest_append] at equal
  exact different (mixByte_injective (digest front) equal)

end Fnv1a

/-- Writing a string is a bijection on the states. So two strings have one hash behind a common
ending if and only if they have one hash without it, and strings of one length that differ at a
single position have different hashes. -/
theorem hash_keeps_states_apart :
    (∀ bytes : Bytes, Function.Bijective fun hasher : Fnv1a => hasher.write bytes) ∧
    (∀ x y suffix : Bytes, Fnv1a.digest (x ++ suffix) = Fnv1a.digest (y ++ suffix) ↔
      Fnv1a.digest x = Fnv1a.digest y) ∧
    ∀ x y : Bytes, x.length = y.length → (∃! position : Nat, x[position]? ≠ y[position]?) →
      Fnv1a.digest x ≠ Fnv1a.digest y := by
  refine ⟨fun bytes => (Fnv1a.writing bytes).bijective, Fnv1a.digest_append_inj, ?_⟩
  intro x y length one
  obtain ⟨front, a, b, back, rfl, rfl, different⟩ := exists_split_of_one_difference length one
  exact Fnv1a.digest_ne_of_changed_byte front back different

/-- Four bytes, the third of them changed in its highest bit. -/
theorem hash_keeps_states_apart_high_bit :
    (∃! position : Nat, ([1, 2, 3, 4] : Bytes)[position]? ≠ ([1, 2, 131, 4] : Bytes)[position]?) ∧
    Fnv1a.digest [1, 2, 3, 4] ≠ Fnv1a.digest [1, 2, 131, 4] ∧
    Fnv1a.digest ([1, 2, 3, 4] ++ [0, 0]) ≠ Fnv1a.digest ([1, 2, 131, 4] ++ [0, 0]) := by
  obtain ⟨-, suffix, changed⟩ := hash_keeps_states_apart
  have one : ∃! position : Nat,
      ([1, 2, 3, 4] : Bytes)[position]? ≠ ([1, 2, 131, 4] : Bytes)[position]? := by
    refine ⟨2, by decide, fun other differs => ?_⟩
    match other with
    | 0 | 1 | 3 => exact absurd rfl differs
    | 2 => rfl
    | _ + 4 => exact absurd rfl differs
  have apart := changed [1, 2, 3, 4] [1, 2, 131, 4] rfl one
  exact ⟨one, apart, mt (suffix _ _ _).mp apart⟩

end SlotTable
