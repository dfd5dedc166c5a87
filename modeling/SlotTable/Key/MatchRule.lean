import SlotTable.Key.Caseless
import SlotTable.Key.Numbered

/-!
# Match rules: when a stored key answers to a probed one

A rule is asked with the stored key first. Only `natural` on types with lawful equality, `caseless`,
`always` and `congruent` are equivalences; tables take any rule.
-/
namespace SlotTable

inductive MatchRule where
  | natural
  | caseless
  | never
  | always
  | atMost
  | below
  | congruent (modulus : UInt64)
  deriving DecidableEq, Repr

def MatchRule.holds {K : Type} [BEq K] [Caseless K] [Numbered K] :
    MatchRule → (stored probed : K) → Bool
  | natural, stored, probed => stored == probed
  | caseless, stored, probed => Caseless.sameLetters stored probed
  | never, _, _ => false
  | always, _, _ => true
  | atMost, stored, probed => Numbered.number stored ≤ Numbered.number probed
  | below, stored, probed => Numbered.number stored < Numbered.number probed
  | congruent modulus, stored, probed =>
    Numbered.number stored % modulus == Numbered.number probed % modulus

end SlotTable
