/-!
# Hexadecimal numbers
-/
namespace SlotTable

/-- Lower-case hexadecimal digits, with zeros in front up to `width`. -/
def hexDigits (width value : Nat) : String :=
  let digits := Nat.toDigits 16 value
  String.ofList (List.replicate (width - digits.length) '0' ++ digits)

end SlotTable
