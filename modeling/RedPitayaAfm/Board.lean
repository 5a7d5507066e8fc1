/-
**The electronic board as the server sees it.**

The board has four inputs with a programmable gain each, and four outputs that can be connected to
one of the inputs each.  The server's code numbers both from zero.

Main definitions:

* `Afm.GainSetting`, `Afm.gainTable` — the gains, their labels and their factors;
* `Afm.numChannels`, `Afm.disconnected` — the constants of `IElectronicBoard`.

Main results:

* `Afm.GainSetting.gainFromLabel_label`, `Afm.GainSetting.ofIndex_toIndex` — labels and indices name
  gains uniquely.
-/

import RedPitayaAfm.Text

set_option relaxedAutoImplicit false
set_option autoImplicit false

namespace Afm

/-- `GainSetting`: the gains of the amplifiers. -/
inductive GainSetting
  | gain1_8
  | gain1_4
  | gain1_2
  | gain1
  | gain2
  | gain4
  | gain8
  | gain16
  deriving DecidableEq

/-- `NUM_CHANNELS` -/
def numChannels : ℕ := 4

/-- `DISCONNECTED` -/
def disconnected : ℕ := 0xFF

/-- `MAX_GAIN_INDEX` -/
def maxGainIndex : ℕ := 7

/-- `c_GainTable`: setting, label and factor in the order of the gain index. -/
def gainTable : List (GainSetting × Text × ℚ) :=
  [(.gain1_8, "1/8".toList, 1 / 8),
   (.gain1_4, "1/4".toList, 1 / 4),
   (.gain1_2, "1/2".toList, 1 / 2),
   (.gain1, "1".toList, 1),
   (.gain2, "2".toList, 2),
   (.gain4, "4".toList, 4),
   (.gain8, "8".toList, 8),
   (.gain16, "16".toList, 16)]

namespace GainSetting

/-- `gainToIndex` -/
def toIndex (g : GainSetting) : ℕ := gainTable.findIdx fun entry => entry.1 == g

/-- `gainFromIndex`: indices out of range degrade to the maximum gain. -/
def ofIndex (index : ℕ) : GainSetting := (gainTable[index]?.map (·.1)).getD .gain16

/-- `gainToString` -/
def label (g : GainSetting) : Text := (gainTable[g.toIndex]?.map (·.2.1)).getD "?".toList

/-- `gainFactor` -/
def factor (g : GainSetting) : ℚ := (gainTable[g.toIndex]?.map (·.2.2)).getD 16

end GainSetting

/-- `gainFromLabel` -/
def gainFromLabel (label : Text) : Option GainSetting :=
  (gainTable.find? fun entry => entry.2.1 == label).map (·.1)

namespace GainSetting

theorem toIndex_le (g : GainSetting) : g.toIndex ≤ maxGainIndex := by
  cases g <;> decide

@[simp] theorem ofIndex_toIndex (g : GainSetting) : ofIndex g.toIndex = g := by
  cases g <;> decide

theorem toIndex_ofIndex {index : ℕ} (h : index ≤ maxGainIndex) : (ofIndex index).toIndex = index := by
  have hall : ∀ i ∈ List.range 8, (ofIndex i).toIndex = i := by decide
  exact hall index (List.mem_range.2 (Nat.lt_succ_of_le h))

@[simp] theorem gainFromLabel_label (g : GainSetting) : gainFromLabel g.label = some g := by
  cases g <;> decide

theorem factor_pos (g : GainSetting) : 0 < g.factor := by
  cases g <;> decide +kernel

/-- No gain is above the one the estimate assumes in doubt. -/
theorem factor_le (g : GainSetting) : g.factor ≤ 16 := by
  cases g <;> decide +kernel

end GainSetting

/-- Only its label names a gain. -/
theorem gainFromLabel_eq_some_iff {label : Text} {g : GainSetting} :
    gainFromLabel label = some g ↔ label = g.label := by
  constructor
  · intro h
    obtain ⟨⟨g', l, f⟩, hfind, rfl⟩ := Option.map_eq_some_iff.1 h
    have hl : l = label := by simpa using List.find?_some hfind
    have hmem := List.mem_of_find?_eq_some hfind
    have hall : ∀ entry ∈ gainTable, entry.2.1 = entry.1.label := by decide
    rw [← hl]
    exact hall _ hmem
  · rintro rfl
    exact GainSetting.gainFromLabel_label g

end Afm
