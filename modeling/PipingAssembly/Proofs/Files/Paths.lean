import PipingAssembly.Files.Path

/-!
# Texts of places

The text of a place goes on from the text of any place above it.
-/

namespace PipingAssembly.Path

/-- The names below a place stand behind the text of the place and a slash. -/
theorem text_append {p rest : Path} (hp : p ≠ []) (hrest : rest ≠ []) :
    (p ++ rest).text = p.text ++ "/" ++ "/".intercalate rest := by
  rw [text, String.intercalate_append_of_ne_nil hp hrest, text]
  simp only [String.append_assoc]

/-- The text of a place begins with the text of every place above it. -/
theorem toList_text_prefix (p rest : Path) : p.text.toList <+: (p ++ rest).text.toList := by
  by_cases hrest : rest = []
  · exact ⟨[], by rw [hrest, List.append_nil, List.append_nil]⟩
  · by_cases hp : p = []
    · subst hp
      exact ⟨("/".intercalate rest).toList, String.toList_append.symm⟩
    · rw [text_append hp hrest, String.toList_append, String.toList_append, List.append_assoc]
      exact List.prefix_append _ _

end PipingAssembly.Path
