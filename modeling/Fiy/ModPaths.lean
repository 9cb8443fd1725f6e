import Fiy.RequestRouting

/-!
# Which mod a target names

A target is a first segment, the path below it and a query. What a mod should be
handed follows from these parts; `mod_send_msg` finds them again with `find` and
`substr` on the whole target. A mod that is missing is given nothing, so nothing is
asked of the target then.
-/

namespace ModPaths

open ByteStrings KeyedTables HttpMessages ModAccess Sessions RequestRouting

/-- The parts of a target behind its leading slash, or behind `/mods/`. -/
structure Parts where
  /-- the path or the id of a mod -/
  segment : Text
  below : Text
  query : Text
  segment_slash : (47 : Byte) ∉ segment
  segment_mark : (63 : Byte) ∉ segment
  below_slash : below = [] ∨ below.head? = some 47
  below_mark : (63 : Byte) ∉ below
  query_mark : query = [] ∨ query.head? = some 63

namespace Parts

def text (p : Parts) : Text := p.segment ++ p.below ++ p.query

/-- What the mod is handed. -/
def subTarget (p : Parts) : Text := (if p.below = [] then lit "/" else p.below) ++ p.query

end Parts

/-- Paths of mods are single segments. -/
def Clean (ms : Mods) : Prop :=
  ∀ path ∈ ms.byPath, (47 : Byte) ∉ path ∧ (63 : Byte) ∉ path

/-- The request is for this host. -/
def HostMatches (h : Host) (r : Request) : Prop :=
  r.fields.value "Host" = [] ∨ r.fields.value "Host" = h.config.hostname

/-! ## Cutting a target -/

section cutting
variable (p : Parts)

/-- A first slash behind the segment and the query's mark is in the query. -/
theorem mark_of_cut {segment query before after : Text} (hs : (47 : Byte) ∉ segment)
    (hq : query.head? = some 63) (found : cut 47 (segment ++ query) = some (before, after)) :
    (63 : Byte) ∈ before := by
  obtain ⟨heq, _⟩ := cut_eq_some_iff.mp found
  rcases List.append_eq_append_iff.mp heq with ⟨inner, rfl, hquery⟩ | ⟨inner, rfl, hafter⟩
  · cases inner with
    | nil => simp [hquery] at hq
    | cons b inner =>
      rw [hquery] at hq
      cases hq
      simp
  · cases inner with
    | nil =>
      rw [← List.nil_append query, ← hafter] at hq
      cases hq
    | cons b inner =>
      cases hafter
      simp at hs

/-- The first slash of the text, wherever it is. -/
theorem cut_slash :
    (∃ rest, p.below = 47 :: rest ∧ cut 47 p.text = some (p.segment, rest ++ p.query)) ∨
    (p.below = [] ∧ (47 : Byte) ∈ p.query ∧
      ∃ before after, (63 : Byte) ∈ before ∧ cut 47 p.text = some (before, after)) ∨
    (p.below = [] ∧ (47 : Byte) ∉ p.query ∧ cut 47 p.text = none) := by
  rcases p.below_slash with empty | slash
  · have whole : p.text = p.segment ++ p.query := by simp [Parts.text, empty]
    by_cases inside : (47 : Byte) ∈ p.query
    · refine Or.inr (Or.inl ⟨empty, inside, ?_⟩)
      have mark : p.query.head? = some 63 := p.query_mark.resolve_left fun none_left => by
        simp [none_left] at inside
      cases hcut : cut 47 p.text with
      | none =>
        rw [cut_eq_none_iff, whole] at hcut
        exact absurd (List.mem_append_right _ inside) hcut
      | some parts =>
        rw [whole] at hcut
        exact ⟨_, _, mark_of_cut p.segment_slash mark hcut, rfl⟩
    · refine Or.inr (Or.inr ⟨empty, inside, ?_⟩)
      rw [cut_eq_none_iff, whole]
      simp [p.segment_slash, inside]
  · obtain ⟨rest, hrest⟩ : ∃ rest, p.below = 47 :: rest := List.head?_eq_some_iff.mp slash
    refine Or.inl ⟨rest, hrest, ?_⟩
    have whole : p.text = p.segment ++ 47 :: (rest ++ p.query) := by simp [Parts.text, hrest]
    rw [whole, cut_append p.segment_slash]

/-- The first question mark of a text without a path below the segment. -/
theorem cut_mark (flat : p.below = []) :
    (p.query = [] ∧ cut 63 p.text = none) ∨
    ∃ rest, p.query = 63 :: rest ∧ cut 63 p.text = some (p.segment, rest) := by
  have whole : p.text = p.segment ++ p.query := by simp [Parts.text, flat]
  rcases p.query_mark with empty | mark
  · refine Or.inl ⟨empty, ?_⟩
    rw [cut_eq_none_iff, whole, empty, List.append_nil]
    exact p.segment_mark
  · obtain ⟨rest, hrest⟩ : ∃ rest, p.query = 63 :: rest := List.head?_eq_some_iff.mp mark
    refine Or.inr ⟨rest, hrest, ?_⟩
    rw [whole, hrest, cut_append p.segment_mark]

end cutting

/-! ## By path -/

/-- The mod whose path is the segment is handed what is below it; else the root mod is
handed the whole target. -/
def DeliveredByPath (ms : Mods) (p : Parts) (t : ModTarget) : Prop :=
  (∀ m, ms.getMod p.segment = some m → t = .mod (some m) p.subTarget) ∧
  (ms.getMod p.segment = none → ∀ m, ms.getMod [] = some m →
    t = .mod (some m) ((47 : Byte) :: p.text))

/-- A slash in the query hides the mod from the search, unless a path below the segment
comes first or there is no such mod. -/
def SeenByPath (ms : Mods) (p : Parts) : Prop :=
  p.below = [] → (47 : Byte) ∈ p.query → p.segment ≠ [] → ms.getMod p.segment = none

theorem pathTarget_of_below (ms : Mods) (p : Parts) {rest : Text} (below : p.below = 47 :: rest)
    (found : cut 47 p.text = some (p.segment, rest ++ p.query)) :
    DeliveredByPath ms p (pathTarget ms (47 :: p.text)) := by
  have sub : p.subTarget = 47 :: (rest ++ p.query) := by simp [Parts.subTarget, below]
  constructor
  · intro m hm
    simp [pathTarget, found, hm, sub]
  · intro missing m hm
    simp [pathTarget, found, missing, hm]

theorem pathTarget_of_flat (ms : Mods) (p : Parts) (flat : p.below = [])
    (hidden : cut 47 p.text = none) : DeliveredByPath ms p (pathTarget ms (47 :: p.text)) := by
  have sub : p.subTarget = lit "/" ++ p.query := by rw [Parts.subTarget, if_pos flat]
  rcases cut_mark p flat with ⟨bare, unmarked⟩ | ⟨rest, hrest, marked⟩
  · have whole : p.text = p.segment := by simp [Parts.text, flat, bare]
    have sub : p.subTarget = lit "/" := by rw [sub, bare, List.append_nil]
    rw [whole] at hidden unmarked ⊢
    by_cases root : p.segment = []
    · have target : pathTarget ms (47 :: p.segment) = .mod (ms.getMod []) (lit "/") := by
        rw [root]
        rfl
      rw [target]
      refine ⟨fun m hm => ?_, fun missing m hm => ?_⟩
      · rw [sub, ← hm, root]
      · rw [root, hm] at missing
        cases missing
    · have longer : ¬ p.segment.length + 1 ≤ 1 := by
        have positive := List.length_pos_of_ne_nil root
        omega
      constructor
      · intro m hm
        simp only [pathTarget, List.tail_cons, hidden, unmarked, List.length_cons, if_neg longer,
          hm, sub]
      · intro missing m hm
        simp only [pathTarget, List.tail_cons, hidden, unmarked, List.length_cons, if_neg longer,
          missing, hm, whole]
  · by_cases root : p.segment = []
    · have target : pathTarget ms (47 :: p.text) = .mod (ms.getMod []) (lit "/" ++ p.query) := by
        simp [pathTarget, hidden, marked, root, hrest]
      rw [target]
      refine ⟨fun m hm => ?_, fun missing m hm => ?_⟩
      · rw [sub, ← root, hm]
      · rw [root, hm] at missing
        cases missing
    · constructor
      · intro m hm
        simp only [pathTarget, List.tail_cons, hidden, marked, if_neg root, hm, sub, hrest]
      · intro missing m hm
        simp only [pathTarget, List.tail_cons, hidden, marked, if_neg root, missing, hm]

theorem deliveredByPath_iff {ms : Mods} (clean : Clean ms) (p : Parts) :
    DeliveredByPath ms p (pathTarget ms (47 :: p.text)) ↔ SeenByPath ms p := by
  rcases cut_slash p with ⟨rest, below, found⟩ | ⟨flat, inside, before, after, mark, found⟩ |
    ⟨flat, outside, hidden⟩
  · refine iff_of_true (pathTarget_of_below ms p below found) fun flat => ?_
    rw [flat] at below
    cases below
  · have unknown : ms.getMod before = none :=
      AList.lookup_eq_none.mpr fun listed => (clean before listed).2 mark
    have target : pathTarget ms (47 :: p.text) = .mod (ms.getMod []) (47 :: p.text) := by
      simp [pathTarget, found, unknown]
    have whole : p.text = p.segment ++ p.query := by simp [Parts.text, flat]
    have sub : p.subTarget = 47 :: p.query := by
      rw [Parts.subTarget, if_pos flat]
      rfl
    rw [target]
    constructor
    · intro delivered _ _ named
      cases hmod : ms.getMod p.segment with
      | none => rfl
      | some m =>
        have same := delivered.1 m hmod
        rw [sub, whole] at same
        injection same with _ same
        have lengths := congrArg List.length same
        have positive := List.length_pos_of_ne_nil named
        simp only [List.length_cons, List.length_append] at lengths
        omega
    · intro seen
      constructor
      · intro m hm
        by_cases root : p.segment = []
        · rw [sub, whole, root, List.nil_append, ← root, hm]
        · rw [seen flat inside root] at hm
          cases hm
      · intro _ m hm
        rw [hm]
  · exact iff_of_true (pathTarget_of_flat ms p flat hidden) fun _ inside => absurd inside outside

/-! ## By id -/

/-- The mod with this id is handed what is below it. -/
def DeliveredById (ms : Mods) (p : Parts) (t : ModTarget) : Prop :=
  ∀ m, ms.getModById p.segment = some m → t = .mod (some m) p.subTarget

/-- The slash is only put in for an empty rest. -/
def SeenById (ms : Mods) (p : Parts) : Prop :=
  p.below = [] → p.query ≠ [] → ms.getModById p.segment = none

/-- What is behind the segment starts with a byte that ends an id. -/
theorem idEnd_head (p : Parts) : p.below ++ p.query = [] ∨
    (p.below ++ p.query).head? = some 47 ∨ (p.below ++ p.query).head? = some 63 := by
  rcases p.below_slash with flat | slash
  · rw [flat, List.nil_append]
    exact p.query_mark.imp id Or.inr
  · obtain ⟨rest, hrest⟩ := List.head?_eq_some_iff.mp slash
    rw [hrest]
    exact Or.inr (Or.inl rfl)

theorem takeWhile_id (p : Parts) :
    p.text.takeWhile (fun b => b ≠ 47 && b ≠ 63) = p.segment ∧
      p.text.dropWhile (fun b => b ≠ 47 && b ≠ 63) = p.below ++ p.query := by
  have inside : ∀ b ∈ p.segment, (b ≠ 47 && b ≠ 63) = true := by
    intro b hb
    have slash : b ≠ 47 := fun same => p.segment_slash (same ▸ hb)
    have mark : b ≠ 63 := fun same => p.segment_mark (same ▸ hb)
    simp [slash, mark]
  rw [Parts.text, List.append_assoc, List.takeWhile_append_of_pos inside,
    List.dropWhile_append_of_pos inside]
  cases hrest : p.below ++ p.query with
  | nil => simp
  | cons b rest =>
    have ends := (idEnd_head p).resolve_left (by simp [hrest])
    rw [hrest] at ends
    rcases ends with slash | mark
    · cases slash
      simp
    · cases mark
      simp

theorem deliveredById_iff (ms : Mods) (p : Parts) :
    DeliveredById ms p (idTarget ms [] p.text) ↔ SeenById ms p := by
  obtain ⟨before, after⟩ := takeWhile_id p
  have target : idTarget ms [] p.text = .mod (ms.getModById p.segment)
      (if p.below ++ p.query = [] then lit "/" else p.below ++ p.query) := by
    simp only [idTarget, before, after, if_true]
  rw [target]
  constructor
  · intro delivered flat asked
    cases hmod : ms.getModById p.segment with
    | none => rfl
    | some m =>
      have same := delivered m hmod
      rw [Parts.subTarget, flat, List.nil_append, if_neg asked, if_pos rfl] at same
      injection same with _ same
      have lengths := congrArg List.length same
      have slash : (lit "/").length = 1 := rfl
      rw [List.length_append, slash] at lengths
      omega
  · intro seen m hm
    rw [hm, Parts.subTarget]
    by_cases flat : p.below = []
    · have bare : p.query = [] := by
        by_contra asked
        rw [seen flat asked] at hm
        cases hm
      rw [flat, bare]
      rfl
    · rw [if_neg flat, if_neg (by simp [flat])]

/-! ## The whole choice -/

/-- How a target addresses a mod. -/
inductive Address
  | byPath (p : Parts)
  | byId (p : Parts)

namespace Address

/-- The request is addressed so. By path it is for this host; there is no path below an
empty segment, and below `mods` there are ids. By id it has no field with another path. -/
def Of (h : Host) (r : Request) : Address → Prop
  | byPath p => r.target = (47 : Byte) :: p.text ∧ HostMatches h r ∧
      (p.below ≠ [] → p.segment ≠ [] ∧ p.segment ≠ lit "mods")
  | byId p => r.target = lit "/mods/" ++ p.text ∧ r.fields.value "Fiy-Path" = []

def Delivered (ms : Mods) (t : ModTarget) : Address → Prop
  | byPath p => DeliveredByPath ms p t
  | byId p => DeliveredById ms p t

def Seen (ms : Mods) : Address → Prop
  | byPath p => SeenByPath ms p
  | byId p => SeenById ms p

end Address

/-- Below another segment than `mods` there is no `/mods/` in front. -/
theorem no_modsPrefix {p : Parts} (other : p.below ≠ [] → p.segment ≠ lit "mods") :
    ((47 : Byte) :: p.text).dropPrefix? (lit "/mods/") = none := by
  cases hdrop : ((47 : Byte) :: p.text).dropPrefix? (lit "/mods/") with
  | none => rfl
  | some rest =>
    obtain ⟨front, heq, hfront⟩ := List.dropPrefix?_eq_some_iff.mp hdrop
    rw [beq_iff_eq] at hfront
    subst hfront
    have text : p.text = lit "mods" ++ 47 :: rest := by
      injection heq
    have found : cut 47 p.text = some (lit "mods", rest) := by
      rw [text, cut_append (by decide)]
    rcases cut_slash p with ⟨below, hbelow, seen⟩ | ⟨_, _, before, after, mark, seen⟩ |
      ⟨_, _, unseen⟩
    · rw [found, Option.some.injEq, Prod.mk.injEq] at seen
      exact absurd seen.1.symm (other (by simp [hbelow]))
    · rw [found, Option.some.injEq, Prod.mk.injEq] at seen
      rw [← seen.1] at mark
      exact absurd mark (by decide)
    · rw [found] at unseen
      cases unseen

/-- `mod_send_msg` delivers a request as its target says exactly when it sees the parts
of the target. -/
theorem delivered_iff {h : Host} {r : Request} {a : Address} (clean : Clean h.mods)
    (addressed : a.Of h r) : a.Delivered h.mods (modTarget h r) ↔ a.Seen h.mods := by
  cases a with
  | byPath p =>
    obtain ⟨text, host, below⟩ := addressed
    have here : ¬ (r.fields.value "Host" ≠ [] ∧ h.config.hostname ≠ r.fields.value "Host") := by
      rintro ⟨given, differs⟩
      exact host.elim given fun same => differs same.symm
    have target : modTarget h r = pathTarget h.mods ((47 : Byte) :: p.text) := by
      simp only [modTarget, text, no_modsPrefix fun hbelow => (below hbelow).2, if_neg here]
    rw [target]
    exact deliveredByPath_iff clean p
  | byId p =>
    obtain ⟨text, unpathed⟩ := addressed
    have target : modTarget h r = idTarget h.mods [] p.text := by
      simp only [modTarget, text, List.dropPrefix?_append_of_beq p.text (BEq.refl _), unpathed]
    rw [target]
    exact deliveredById_iff h.mods p

/-- `blog`, with a page below it and a query. -/
def demoParts : Parts where
  segment := "blog"
  below := "/page"
  query := "?next=/"
  segment_slash := by decide
  segment_mark := by decide
  below_slash := by decide
  below_mark := by decide
  query_mark := by decide

/-- The same without the page. -/
def flatParts : Parts where
  segment := "blog"
  below := []
  query := "?next=/"
  segment_slash := by decide
  segment_mark := by decide
  below_slash := by decide
  below_mark := by decide
  query_mark := by decide

theorem demoMods_clean : Clean demoHost.mods := by
  intro path listed
  have blog : path = lit "blog" := by
    rcases (AList.mem_insert _).mp listed with same | none_else
    · exact same
    · exact absurd none_else (AList.notMem_empty path)
  subst blog
  decide

/-- `GET /blog/page?next=/` reaches the blog. -/
theorem demo_delivered :
    (Address.byPath demoParts).Delivered demoHost.mods
      (modTarget demoHost ⟨.get, "/blog/page?next=/", [], []⟩) := by
  have addressed : (Address.byPath demoParts).Of demoHost ⟨.get, "/blog/page?next=/", [], []⟩ :=
    And.intro (by decide) (And.intro (Or.inl (by decide)) fun _ => by decide)
  exact (delivered_iff demoMods_clean addressed).mpr fun flat => absurd flat (by decide)

/-- `GET /blog?next=/` does not. -/
theorem slash_in_query_misroutes :
    ¬ (Address.byPath flatParts).Delivered demoHost.mods
      (modTarget demoHost ⟨.get, "/blog?next=/", [], []⟩) := by
  intro delivered
  have root : modTarget demoHost ⟨.get, "/blog?next=/", [], []⟩ = .mod none "/blog?next=/" := by
    decide
  have reached := delivered.1 demoMod (by decide)
  rw [root] at reached
  cases reached

end ModPaths
