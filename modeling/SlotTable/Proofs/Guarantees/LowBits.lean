import SlotTable.Proofs.Guarantees.Turned
import SlotTable.Proofs.Home.Consecutive

/-!
# Only the low bits of a hash count

If the capacity is a power of two, then the home slot depends on as many low bits of the hash as a
slot has, and no two values of them have the same home, as the multiplier is odd. A hash function
can then be replaced by one that agrees with it in these bits, and no call tells the difference.
-/
namespace SlotTable

open Nat (ModEq)

theorem homeIndex_of_dvd {capacity : Nat} (divides : capacity ∣ 2 ^ 64) (hash : UInt64) :
    (homeIndex hash capacity : Int) = -(59 * hash.toNat + 83) % capacity := by
  have zero := (mix_add_modEq hash).of_dvd divides
  rw [ModEq, Nat.zero_mod] at zero
  unfold homeIndex
  rw [Int.natCast_emod, Int.emod_eq_emod_iff_emod_sub_eq_zero, sub_neg_eq_add]
  exact_mod_cast zero

/-- Two hashes have one home if and only if they agree in the low bits. -/
theorem homeIndex_two_pow_eq_iff {m : Nat} (small : m ≤ 63) (first second : UInt64) :
    homeIndex first (2 ^ m) = homeIndex second (2 ^ m) ↔
      first.toNat ≡ second.toNat [MOD 2 ^ m] := by
  have divides : 2 ^ m ∣ 2 ^ 64 := Nat.pow_dvd_pow 2 (by omega)
  have zero := (mix_add_modEq first).of_dvd divides
  have zeroSecond := (mix_add_modEq second).of_dvd divides
  have odd : Nat.gcd (2 ^ m) 59 = 1 := Nat.Coprime.pow_left m (by decide)
  have sums := zero.trans zeroSecond.symm
  constructor
  · intro home
    have products := ModEq.add_right_cancel' 83 (ModEq.add_left_cancel home sums)
    exact ModEq.cancel_left_of_coprime odd products
  · intro low
    exact ModEq.add_right_cancel ((low.mul_left 59).add_right 83) sums

theorem sameRuns_of_homes {K : Type} {capacity : Nat} (positive : 0 < capacity)
    {hash hasher : K → UInt64} (matching : K → K → Bool)
    (homes : ∀ key, homeIndex (hasher key) capacity = homeIndex (hash key) capacity) :
    SameRuns (DynamicTable.create capacity hash matching)
      (DynamicTable.create capacity hasher matching) ∧
    (∀ [Placeholder K] (positive : 0 < capacity),
      SameRuns (FixedTable.create positive hash matching)
        (FixedTable.create positive hasher matching)) ∧
    ∀ (S : Type) [Storage S K] [LawfulStorage S K] (given : S),
      Storage.capacity given = capacity →
      SameRuns (LinearTable.create given hash matching)
        (LinearTable.create given hasher matching) := by
  have equal := Rules.ofHash_congr homes positive matching
  refine ⟨?_, ?_, ?_⟩
  · exact Ruled.sameRuns (DynamicTable.starts positive hash matching)
      (equal .reported ▸ DynamicTable.starts positive hasher matching)
  · intro _ _
    exact Ruled.sameRuns (FixedTable.starts positive hash matching)
      (equal .fatal ▸ FixedTable.starts positive hasher matching)
  · intro S _ _ given sized
    exact Ruled.sameRuns (LinearTable.starts positive hash matching given sized)
      (equal .silent ▸ LinearTable.starts positive hasher matching given sized)

/-- With two to the power `m` slots the home of a hash is minus the sum of 59 times the hash and 83,
modulo the capacity; two hashes have the same home if and only if their `m` low bits are the same;
as many hashes in a row as there are slots have each slot as home once; and two hash functions with
the same low bits lead to the same answers and listings of the two public tables and of linear
tables over any storage. -/
theorem low_bits_decide {m : Nat} (small : m ≤ 63) :
    (∀ hash : UInt64, ∃ slot, home hash (2 ^ m) = .ok slot ∧
      (slot : Int) = -(59 * hash.toNat + 83) % (2 ^ m : Nat)) ∧
    (∀ first second : UInt64,
      home first (2 ^ m) = home second (2 ^ m) ↔ first.toNat ≡ second.toNat [MOD 2 ^ m]) ∧
    (∀ hash : UInt64, ∃ slots, homesFrom hash (2 ^ m) = .ok slots ∧
      slots.Perm (List.range (2 ^ m))) ∧
    ∀ (K : Type) (hash hasher : K → UInt64) (matching : K → K → Bool),
      (∀ key, (hasher key).toNat ≡ (hash key).toNat [MOD 2 ^ m]) →
      SameRuns (DynamicTable.create (2 ^ m) hash matching)
        (DynamicTable.create (2 ^ m) hasher matching) ∧
      (∀ [Placeholder K] (positive : 0 < 2 ^ m),
        SameRuns (FixedTable.create positive hash matching)
          (FixedTable.create positive hasher matching)) ∧
      ∀ (S : Type) [Storage S K] [LawfulStorage S K] (given : S),
        Storage.capacity given = 2 ^ m →
        SameRuns (LinearTable.create given hash matching)
          (LinearTable.create given hasher matching) := by
  have positive : 0 < 2 ^ m := Nat.two_pow_pos m
  have divides : 2 ^ m ∣ 2 ^ 64 := Nat.pow_dvd_pow 2 (by omega)
  have home_eq : ∀ hash, home hash (2 ^ m) = .ok (homeIndex hash (2 ^ m)) :=
    fun _ => if_neg positive.ne'
  refine ⟨?_, ?_, ?_, ?_⟩
  · exact fun hash => ⟨_, home_eq hash, homeIndex_of_dvd divides hash⟩
  · intro first second
    rw [home_eq, home_eq, Except.ok.injEq, homeIndex_two_pow_eq_iff small]
  · intro hash
    have odd : ¬ 59 ∣ 2 ^ m := fun multiple =>
      absurd (Nat.Prime.dvd_of_dvd_pow (by norm_num) multiple) (by decide : ¬ 59 ∣ 2)
    refine ⟨_, homesFrom_eq positive, ?_⟩
    exact (homes_perm_iff positive (descends_of_dvd divides) (homesFrom_eq positive)).mpr odd
  · intro K hash hasher matching low
    exact sameRuns_of_homes positive matching fun key =>
      (homeIndex_two_pow_eq_iff small _ _).mpr (low key)

/-- Four slots: the row of hashes passes the greatest one, and two hash functions that differ in a
higher bit of every hash fill the slots in the same way. -/
theorem low_bits_decide_four_slots :
    (∃ slots, homesFrom 18446744073709551614 4 = .ok slots ∧ slots = [3, 0, 1, 2] ∧
      slots.Perm (List.range 4)) ∧
    home 18446744073709551615 4 = home 7 4 ∧
    ∃ (calls : List ((Route × Route) × Op Bool)) (shown : Transcript Bool),
      calls.map Prod.snd = [.insert true, .insert false, .erase true, .indexOf false] ∧
      shown.steps = [(.slot (some 2), .ok [(2, true)]),
        (.slot (some 3), .ok [(2, true), (3, false)]), (.slot (some 2), .ok [(3, false)]),
        (.slot none, .ok [(3, false)])] ∧
      transcript (DynamicTable.create 4 (fun _ => 1) fun a b => a == b) .off
        (calls.map fun call => (call.1.1, call.2)) = .ok shown ∧
      transcript (DynamicTable.create 4 (fun key => if key then 5 else 9) fun a b => a == b) .off
        (calls.map fun call => (call.1.2, call.2)) = .ok shown := by
  obtain ⟨-, home_iff, row, same⟩ := low_bits_decide (by decide : 2 ≤ 63)
  obtain ⟨slots, homes, all⟩ := row 18446744073709551614
  refine ⟨⟨slots, homes, ?_, all⟩, (home_iff _ _).mpr (by decide), ?_⟩
  · exact (Except.ok.inj ((rfl : homesFrom 18446744073709551614 4 = .ok _).symm.trans homes)).symm
  · let calls : List ((Route × Route) × Op Bool) :=
      [((.direct, .direct), .insert true), ((.direct, .throughIndex), .insert false),
        ((.direct, .direct), .erase true), ((.throughIndex, .direct), .indexOf false)]
    obtain ⟨shown, shownFirst, shownSecond⟩ :=
      (same Bool (fun _ => 1) (fun key => if key then 5 else 9)
        (fun a b => a == b) (by decide)).1 calls .off .off
    have ran : transcript (DynamicTable.create 4 (fun _ : Bool => 1)
        fun a b => a == b) .off (calls.map fun call => (call.1.1, call.2)) = .ok ⟨_, _⟩ := rfl
    obtain rfl := Except.ok.inj (ran.symm.trans shownFirst)
    exact ⟨calls, _, rfl, rfl, shownFirst, shownSecond⟩

end SlotTable
