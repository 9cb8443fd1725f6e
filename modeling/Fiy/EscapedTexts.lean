import Fiy.ByteStrings
import Fiy.EscapeTables

/-!
# Escaped HTML

`escape_html` of `MinSSR.hpp` and of `FileCache.hpp`, two copies of one loop.
-/

namespace EscapedTexts

open ByteStrings EscapeTables

namespace MinSSR

def escapeTurn (ret : Text) (c : Byte) : Text :=
  if c = 60 then ret ++ lit "&lt;"
  else if c = 38 then ret ++ lit "&amp;"
  else if c = 62 then ret ++ lit "&gt;"
  else if c = 39 then ret ++ lit "&apos;"
  else if c = 34 then ret ++ lit "&quot;"
  else ret ++ [c]

/-- `MinSSR::escape_html` -/
def escapeHtml (nonHtml : Text) : Text := nonHtml.foldl escapeTurn []

end MinSSR

namespace FileCache

def escapeTurn (ret : Text) (c : Byte) : Text :=
  if c = 60 then ret ++ lit "&lt;"
  else if c = 38 then ret ++ lit "&amp;"
  else if c = 62 then ret ++ lit "&gt;"
  else if c = 39 then ret ++ lit "&apos;"
  else if c = 34 then ret ++ lit "&quot;"
  else ret ++ [c]

/-- `FileCache::escape_html` -/
def escapeHtml (nonHtml : Text) : Text := nonHtml.foldl escapeTurn []

end FileCache

/-- The characters that are written as entities. -/
def html : EscapeTable Byte where
  entries := [(60, lit "&lt;"), (38, lit "&amp;"), (62, lit "&gt;"), (39, lit "&apos;"),
    (34, lit "&quot;")]
  mark := 38
  marked := by decide +kernel
  covered := by decide +kernel
  clean := by decide +kernel
  separate := by decide +kernel

/-- The cases of the switch are the entries of the table. -/
theorem escapeTurn_eq (ret : Text) (c : Byte) :
    MinSSR.escapeTurn ret c = ret ++ html.escapeOne c := by
  unfold MinSSR.escapeTurn EscapeTable.escapeOne html
  split_ifs with lt amp gt apos quot
  · simp [lt]
  · simp [amp]
  · simp [gt]
  · simp [apos]
  · simp [quot]
  · simp [Ne.symm lt, Ne.symm amp, Ne.symm gt, Ne.symm apos, Ne.symm quot]

theorem foldl_escapeTurn (s ret : Text) :
    s.foldl MinSSR.escapeTurn ret = ret ++ html.escape s := by
  induction s generalizing ret with
  | nil => simp [EscapeTable.escape]
  | cons c s ih => rw [List.foldl_cons, ih, escapeTurn_eq, List.append_assoc, ← html.escape_cons]

theorem escapeHtml_eq (s : Text) : MinSSR.escapeHtml s = html.escape s := foldl_escapeTurn s []

theorem escapeHtml_same (s : Text) : FileCache.escapeHtml s = MinSSR.escapeHtml s := rfl

/-- The character is one of an entity, other than the one with which all of them start. -/
theorem notMem_escapeHtml {c : Byte} (listed : c ∈ [60, 62, 39, 34]) (s : Text) :
    c ∉ MinSSR.escapeHtml s := by
  rw [escapeHtml_eq]
  have inside : ∀ c ∈ ([60, 62, 39, 34] : Text),
      c ∈ html.entries.map Prod.fst ∧ c ≠ html.mark := by decide +kernel
  exact EscapeTable.notMem_escape (inside c listed).1 (inside c listed).2 s

/-- Both functions write the same, which has no character in it that HTML reads, an ampersand only
where an entity starts, and can be read back. -/
theorem escaping_sound (s : Text) :
    MinSSR.escapeHtml s = FileCache.escapeHtml s ∧
    (∀ c ∈ [60, 62, 39, 34], c ∉ MinSSR.escapeHtml s) ∧
    (∀ before after, MinSSR.escapeHtml s = before ++ 38 :: after →
      ∃ entity ∈ [lit "&lt;", lit "&amp;", lit "&gt;", lit "&apos;", lit "&quot;"],
        entity <+: 38 :: after) ∧
    html.unescape (MinSSR.escapeHtml s) = s ∧
    (∀ t, MinSSR.escapeHtml s = MinSSR.escapeHtml t → s = t) ∧
    ∀ t, MinSSR.escapeHtml (s ++ t) = MinSSR.escapeHtml s ++ MinSSR.escapeHtml t := by
  refine ⟨(escapeHtml_same s).symm, fun c listed => notMem_escapeHtml listed s, ?_, ?_, ?_, ?_⟩
  · intro before after split
    rw [escapeHtml_eq] at split
    obtain ⟨e, mem, starts⟩ := EscapeTable.starts_of_mark split
    exact ⟨e.2, List.mem_map_of_mem (f := Prod.snd) mem, starts⟩
  · rw [escapeHtml_eq, EscapeTable.unescape_escape]
  · intro t same
    rw [escapeHtml_eq, escapeHtml_eq] at same
    exact EscapeTable.escape_injective same
  · intro t
    rw [escapeHtml_eq, escapeHtml_eq, escapeHtml_eq, html.escape_append]

end EscapedTexts
