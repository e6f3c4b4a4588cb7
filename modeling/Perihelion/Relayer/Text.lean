import Perihelion.Lib.Hex
import Perihelion.Sdk.Stellar

/-! # Texts

What the adapters of the relayer do with hexadecimal texts and names.
-/

namespace Perihelion.Relayer

open BigEndian
open Sdk (JsString js)

def hexText (bytes : Bytes) : JsString := js "0x" ++ Hex.text bytes

/-- `s.startsWith("0x") ? s.slice(2) : s`. -/
def strip0x (s : JsString) : JsString := if (js "0x").isPrefixOf s then s.drop 2 else s

theorem strip0x_prefixed (s : JsString) : strip0x (js "0x" ++ s) = s := by
  simp [strip0x, js]

/-- `toLowerCase` for a comparison of ASCII texts: besides the capital letters only the Kelvin
    sign has an ASCII letter for its lower case. -/
def toLowerCase (s : JsString) : JsString :=
  s.map fun unit => if 65 ≤ unit ∧ unit ≤ 90 then unit + 32 else if unit = 0x212A then 107 else unit

theorem toLowerCase_toLowerCase (s : JsString) : toLowerCase (toLowerCase s) = toLowerCase s := by
  unfold toLowerCase
  rw [List.map_map]
  apply List.map_congr_left
  intro unit _
  have letter {unit : UInt16} (capital : 65 ≤ unit ∧ unit ≤ 90) :
      ¬ (65 ≤ unit + 32 ∧ unit + 32 ≤ 90) ∧ unit + 32 ≠ 0x212A := by
    simp only [UInt16.le_iff_toNat_le, UInt16.reduceToNat, UInt16.toNat_add, ne_eq,
      ← UInt16.toNat_inj] at capital ⊢
    omega
  by_cases capital : 65 ≤ unit ∧ unit ≤ 90
  · obtain ⟨small, ascii⟩ := letter capital
    simp only [Function.comp_apply, if_pos capital, if_neg small, if_neg ascii]
  · by_cases kelvin : unit = 0x212A
    · subst kelvin
      rfl
    · simp only [Function.comp_apply, if_neg capital, if_neg kelvin]

end Perihelion.Relayer
