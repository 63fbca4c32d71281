import Mathlib.Data.Nat.Init

/-! The numerals that several modules use. Without an instance of its own a numeral carries a proof
that is named after the first definition that uses it, and so differs from module to module. -/

namespace Numerals

instance two : Nat.AtLeastTwo 2 := ⟨by decide⟩

instance three : Nat.AtLeastTwo 3 := ⟨by decide⟩

instance four : Nat.AtLeastTwo 4 := ⟨by decide⟩

instance five : Nat.AtLeastTwo 5 := ⟨by decide⟩

instance six : Nat.AtLeastTwo 6 := ⟨by decide⟩

instance seven : Nat.AtLeastTwo 7 := ⟨by decide⟩

instance eight : Nat.AtLeastTwo 8 := ⟨by decide⟩

instance ten : Nat.AtLeastTwo 10 := ⟨by decide⟩

instance twelve : Nat.AtLeastTwo 12 := ⟨by decide⟩

instance sixteen : Nat.AtLeastTwo 16 := ⟨by decide⟩

instance twenty : Nat.AtLeastTwo 20 := ⟨by decide⟩

instance hundred : Nat.AtLeastTwo 100 := ⟨by decide⟩

instance thousand : Nat.AtLeastTwo 1000 := ⟨by decide⟩

instance tenThousand : Nat.AtLeastTwo 10000 := ⟨by decide⟩

instance hundredThousand : Nat.AtLeastTwo 100000 := ⟨by decide⟩

end Numerals
