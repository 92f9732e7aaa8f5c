import TradingPlatform.Json.Value

/-!
# `Json.Text` — strings written as JSON text

`to_string` on a JSON value that is a string writes the JSON text of the string, which has its quotes around it. It is
never the string itself (`quoted_ne_self`).
-/

namespace TradingPlatform
namespace Json

/-- A character inside a JSON string: short escapes where there are any, and `\u` for the other control characters. -/
def escaped (c : Char) : List Char :=
  if c = '"' then ['\\', '"']
  else if c = '\\' then ['\\', '\\']
  else if c.toNat = 8 then ['\\', 'b']
  else if c.toNat = 9 then ['\\', 't']
  else if c.toNat = 10 then ['\\', 'n']
  else if c.toNat = 12 then ['\\', 'f']
  else if c.toNat = 13 then ['\\', 'r']
  else if c.toNat < 32 then
    ['\\', 'u', '0', '0', Nat.digitChar (c.toNat / 16), Nat.digitChar (c.toNat % 16)]
  else [c]

/-- The JSON text of a string. -/
def quoted (s : String) : String := String.ofList ('"' :: (s.toList.flatMap escaped ++ ['"']))

theorem escaped_ne_nil (c : Char) : escaped c ≠ [] := by
  unfold escaped
  split_ifs <;> exact List.cons_ne_nil _ _

theorem length_le_flatMap_escaped (cs : List Char) : cs.length ≤ (cs.flatMap escaped).length := by
  induction cs with
  | nil => exact Nat.le_refl _
  | cons c cs ih =>
      have hpos : 0 < (escaped c).length := List.length_pos_iff.mpr (escaped_ne_nil c)
      rw [List.flatMap_cons, List.length_append, List.length_cons]
      omega

/-- The quotes make a text of another length. -/
theorem quoted_ne_self (s : String) : quoted s ≠ s := by
  intro h
  have hlength := congrArg (fun t : String => t.toList.length) h
  have hle := length_le_flatMap_escaped s.toList
  simp only [quoted, String.toList_ofList, List.length_cons, List.length_append, List.length_nil] at hlength
  omega

/-- What does not begin with a quote is not the text of a string. -/
theorem quoted_ne {s t : String} (h : t.toList.head? ≠ some '"') : quoted s ≠ t := by
  rintro rfl
  exact h (by rw [quoted, String.toList_ofList, List.head?_cons])

end Json
end TradingPlatform
