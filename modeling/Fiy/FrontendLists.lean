import Fiy.FrontendSaves

/-!
# The list of contacts on the page

The server answers with all cards of a user in a row, and the page cuts the answer at the ends of
the cards. Each card of the server is one of the page then. Saved again as it is, a card comes
back exactly when the page keeps its parameters and the last value has no blanks behind it.
-/

namespace FrontendLists

open ByteStrings WebText ModLibrary EncodedTexts ContentLines CardTexts CardRoundTrip FrontendCards
open FrontendSaves FrontendSaves.SpelledProp ContactsStore ContactsAnswers
open ContactCards.VC (toVcard userOf)
open FrontendCards.VCProperty FrontendCards.VC

/-! ## Cutting -/

theorem splitText_skip (sep : Str) {skipped : Str} (rest : Str) {n : Nat}
    (length : skipped.length = n) : splitText sep n (skipped ++ rest) = splitText sep 0 rest := by
  induction skipped generalizing n with
  | nil => rw [← length, List.nil_append, List.length_nil]
  | cons c skipped ih =>
    rw [← length, List.length_cons, List.cons_append, splitText, ih rfl]

theorem splitText_found {sep : Str} (some_ : sep ≠ []) (rest : Str) :
    splitText sep 0 (sep ++ rest) = [] :: splitText sep 0 rest := by
  obtain ⟨c, more, rfl⟩ := List.exists_cons_of_ne_nil some_
  have found : c :: more <+: c :: (more ++ rest) := List.prefix_append _ _
  rw [List.cons_append, splitText, if_pos found, splitText_skip _ _ (by simp)]

/-- Up to a character that is not in the separator nothing is cut, if the separator is not in
front of it. -/
theorem splitText_line {sep : Str} (line : Str) {c : Char} (other : c ∉ sep)
    (absent : ¬ sep <:+: line) (rest : Str) :
    splitText sep 0 (line ++ c :: rest) =
      (splitText sep 0 rest).modifyHead (line ++ c :: ·) := by
  have within : ∀ line : Str, ¬ sep <:+: line → ¬ sep <+: line ++ c :: rest := by
    intro line absent begins
    have whole : line ++ [c] <+: line ++ c :: rest := ⟨rest, by simp⟩
    rcases List.prefix_or_prefix_of_prefix begins whole with short | long
    · rcases List.prefix_concat_iff.mp short with is_ | front
      · exact other (is_ ▸ by simp)
      · exact absent front.isInfix
    · exact other (long.subset (by simp))
  induction line with
  | nil =>
    have here : ¬ sep <+: c :: rest := within [] absent
    rw [List.nil_append, splitText, if_neg here]
    rfl
  | cons d line ih =>
    have shorter : ¬ sep <:+: line := fun inside => absent (List.infix_cons inside)
    have here : ¬ sep <+: d :: (line ++ c :: rest) := within (d :: line) absent
    rw [List.cons_append, splitText, if_neg here, ih shorter,
      List.modifyHead_modifyHead]
    rfl

theorem endToken_plain : endToken ≠ [] ∧ '\r' ∉ endToken ∧ '\n' ∉ endToken := by decide

theorem line_endToken : Line marks endToken := by
  obtain ⟨-, cr, lf⟩ := endToken_plain
  exact ⟨fun c mem => ⟨ne_of_mem_of_not_mem mem cr, ne_of_mem_of_not_mem mem lf⟩, by decide⟩

/-- The lines of a card stay together. -/
theorem splitText_joined {ls : List Str} (absent : ∀ l ∈ ls, ¬ endToken <:+: l) (rest : Str) :
    splitText endToken 0 (joined marks ls rest) =
      (splitText endToken 0 rest).modifyHead (joined marks ls [] ++ ·) := by
  obtain ⟨some_, cr, lf⟩ := endToken_plain
  induction ls with
  | nil =>
    have whole : joined marks [] rest = rest := rfl
    rw [whole]
    cases splitText endToken 0 rest with
    | nil => rfl
    | cons piece pieces => rfl
  | cons l ls ih =>
    obtain ⟨first, absent⟩ := List.forall_mem_cons.mp absent
    have feed := splitText_line [] (c := '\n') lf
      (fun inside => some_ (List.infix_nil.mp inside)) (joined marks ls rest)
    have return_ := splitText_line l (c := '\r') cr first
      ('\n' :: joined marks ls rest)
    have line : joined marks (l :: ls) rest = l ++ '\r' :: '\n' :: joined marks ls rest :=
      joined_cons l ls rest
    have alone : joined marks (l :: ls) [] = l ++ '\r' :: '\n' :: joined marks ls [] :=
      joined_cons l ls []
    rw [List.nil_append] at feed
    rw [line, return_, feed, ih absent, List.modifyHead_modifyHead, List.modifyHead_modifyHead, alone]
    congr 1
    funext t
    simp

/-! ## Trimming -/

theorem trim_blank {front : Str} (blank : ∀ c ∈ front, FrontendCards.isSpace c = true) (t : Str) :
    FrontendCards.trim (front ++ t) = FrontendCards.trim t := by
  rw [FrontendCards.trim, List.dropWhile_append_of_pos blank, FrontendCards.trim]

def trimEnd (s : Str) : Str := s.rdropWhile FrontendCards.isSpace

theorem trimEnd_append (front t : Str) : trimEnd (front ++ t) =
    if trimEnd t = [] then trimEnd front else front ++ trimEnd t := by
  simp only [trimEnd, List.rdropWhile, List.reverse_append, List.dropWhile_append,
    List.isEmpty_iff, List.reverse_eq_nil_iff]
  split
  · rfl
  · rw [List.reverse_append, List.reverse_reverse]

theorem trimEnd_solid (front : Str) {c : Char} (solid : FrontendCards.isSpace c = false)
    (value : Str) : trimEnd (front ++ c :: value) = front ++ c :: trimEnd value := by
  have end_ : trimEnd ([c] ++ value) = [c] ++ trimEnd value := by
    rw [trimEnd_append]
    split
    next empty =>
      rw [empty, List.append_nil, trimEnd, List.rdropWhile_singleton, if_neg (by simp [solid])]
    · rfl
  rw [List.singleton_append, List.singleton_append] at end_
  rw [trimEnd_append, end_, if_neg (List.cons_ne_nil _ _)]

theorem trimEnd_blank {t : Str} (blank : t.all FrontendCards.isSpace = true) (s : Str) :
    trimEnd (s ++ t) = trimEnd s := by
  have nothing : trimEnd t = [] :=
    List.rdropWhile_eq_nil_iff.mpr (List.all_eq_true.mp blank)
  rw [trimEnd_append, if_pos nothing]

theorem trim_front {s : Str} {c : Char} (solid : FrontendCards.isSpace c = false)
    (first : s.head? = some c) : FrontendCards.trim s = trimEnd s := by
  cases s with
  | nil => cases first
  | cons d s =>
    obtain rfl := Option.some.inj first
    rw [FrontendCards.trim, List.dropWhile_cons_of_neg (by simp [solid])]
    rfl

/-- The blanks behind the last value are gone. -/
def trimLast : List SpelledProp → List SpelledProp
  | [] => []
  | [p] => [{ p with value := trimEnd p.value }]
  | p :: q :: ps => p :: trimLast (q :: ps)

theorem trimLast_concat (ps : List SpelledProp) (p : SpelledProp) :
    trimLast (ps ++ [p]) = ps ++ [{ p with value := trimEnd p.value }] := by
  induction ps with
  | nil => rfl
  | cons q ps ih =>
    cases ps with
    | nil => rfl
    | cons r ps =>
      rw [List.cons_append, List.cons_append, trimLast, ← List.cons_append, ih]
      rfl

theorem mem_trimLast {ps : List SpelledProp} {q : SpelledProp} (listed : q ∈ trimLast ps) :
    ∃ p ∈ ps, q = p ∨ q = { p with value := trimEnd p.value } := by
  rcases List.eq_nil_or_concat ps with rfl | ⟨init, p, rfl⟩
  · cases listed
  · rw [List.concat_eq_append, trimLast_concat, List.mem_append, List.mem_singleton] at listed
    rcases listed with listed | rfl
    · exact ⟨q, by simp [listed], Or.inl rfl⟩
    · exact ⟨p, by simp, Or.inr rfl⟩

section cards
variable {served : CardHost} {vc : ContactCards.VC} {ps : List SpelledProp}

/-- The card as the list of the page has it. -/
def listed (vc : ContactCards.VC) (ps : List SpelledProp) : ContactCards.VC :=
  { vc with props := (trimLast ps).map column }

theorem ShownCard.listed (card : ShownCard served vc ps) :
    ShownCard served (listed vc ps) (trimLast ps) := by
  have props : ∀ q ∈ trimLast ps,
      (EditableProp q.column ∧ PlainProp q.column) ∧ Shown q := by
    intro q trimmed
    obtain ⟨p, mem, rfl | rfl⟩ := mem_trimLast trimmed
    · exact ⟨card.prop mem, card.shown _ mem⟩
    · obtain ⟨editable, plain⟩ := card.prop mem
      have shown := card.shown p mem
      refine ⟨⟨⟨editable.name, ?_, editable.params, editable.visibility, editable.id⟩,
        plain.name, plain.params⟩, shown.name, shown.params⟩
      have value : Unbroken (utf8 p.value) := editable.value
      have sub : ∀ c, c ∈ trimEnd p.value → c ∈ p.value := fun c mem =>
        (List.rdropWhile_prefix _ _).subset mem
      intro b mem
      constructor
      · rintro rfl
        have inside := sub '\r' ((mem_utf8_iff (c := '\r') (by decide)).mp mem)
        exact (value 13 ((mem_utf8_iff (c := '\r') (by decide)).mpr inside)).1 rfl
      · rintro rfl
        have inside := sub '\n' ((mem_utf8_iff (c := '\n') (by decide)).mp mem)
        exact (value 10 ((mem_utf8_iff (c := '\n') (by decide)).mpr inside)).2 rfl
  have stored : ∀ q ∈ (FrontendLists.listed vc ps).props,
      EditableProp q ∧ PlainProp q := by
    intro q column_
    obtain ⟨p, mem, rfl⟩ := List.mem_map.mp column_
    exact (props p mem).1
  have named : ∃ q ∈ (FrontendLists.listed vc ps).props, q.name = "N" ∨ q.name = "FN" := by
    obtain ⟨q, column_, named⟩ := card.editable.named
    rw [card.spelled] at column_
    obtain ⟨p, mem, rfl⟩ := List.mem_map.mp column_
    rcases List.eq_nil_or_concat ps with rfl | ⟨init, last, rfl⟩
    · cases mem
    · rw [FrontendLists.listed, List.concat_eq_append, trimLast_concat]
      rw [List.concat_eq_append, List.mem_append, List.mem_singleton] at mem
      rcases mem with mem | rfl
      · exact ⟨p.column, List.mem_map_of_mem (List.mem_append_left _ mem), named⟩
      · exact ⟨_, List.mem_map_of_mem (List.mem_append_right _ List.mem_cons_self), named⟩
  exact ⟨⟨named, fun q mem => (stored q mem).1, card.editable.id, card.editable.user⟩,
    ⟨card.plain.valid, fun q mem => (stored q mem).2, card.plain.time⟩, rfl,
    fun q mem => (props q mem).2⟩

/-- The lines of a card that has a property end with one of them. -/
theorem ShownCard.last_line (card : ShownCard served vc ps) {ls : List Str}
    (lines : ls.map utf8 = vcardLines served.host vc) :
    ∃ init front value, ls = init ++ [front ++ ':' :: value] ∧
      (init ++ [front ++ ':' :: trimEnd value]).map utf8 =
        vcardLines served.host (FrontendLists.listed vc ps) := by
  rcases List.eq_nil_or_concat ps with rfl | ⟨before, p, rfl⟩
  · obtain ⟨q, mem, -⟩ := card.editable.named
    rw [card.spelled] at mem
    cases mem
  · rw [List.concat_eq_append] at card ⊢
    have trimmed := ShownCard.listed card
    have last : p ∈ before ++ [p] := List.mem_append_right _ List.mem_cons_self
    have last' : { p with value := trimEnd p.value } ∈ trimLast (before ++ [p]) := by
      rw [trimLast_concat]
      exact List.mem_append_right _ List.mem_cons_self
    rw [vcardLines, card.spelled, List.map_append, List.map_append, ← List.append_assoc] at lines
    obtain ⟨init, end_, rfl, front, ended⟩ := List.map_eq_append_iff.mp lines
    obtain ⟨l, rfl, text⟩ := List.map_eq_singleton_iff.mp ended
    have text_ := propText_column (card.prop last).1 (vc.user = vc.owner)
    obtain rfl := utf8_injective (text.trans text_)
    refine ⟨init, _, p.value, rfl, ?_⟩
    have value := propText_column (trimmed.prop last').1 (vc.user = vc.owner)
    rw [List.map_append, front, vcardLines, FrontendLists.listed, trimLast_concat, List.map_append,
      List.map_append, ← List.append_assoc]
    exact congrArg _ (congrArg (fun t => [t]) value.symm)

/-- A text that begins and ends without blanks is read line by line. -/
theorem parseCard_lines {init : List Str} {last : Str}
    (are : ∀ l ∈ init ++ [last], Line marks l)
    (begins : "BEGIN:VCARD".toList <+: joined marks init last) (end_ : trimEnd last = last) :
    parseCard (joined marks init last) = some ⟨(init ++ [last]).filterMap fromLine⟩ := by
  have first : (joined marks init last).head? = some 'B' := by
    obtain ⟨rest, text⟩ := begins
    rw [← text]
    rfl
  have solid : trimEnd last ≠ [] := by
    rw [end_]
    rintro rfl
    have starts_ := (are [] (by simp)).solid
    cases starts_
  have trimmed : FrontendCards.trim (joined marks init last) = joined marks init last := by
    rw [trim_front (by decide) first, joined, trimEnd_append, if_neg solid, end_]
  rw [List.forall_mem_append] at are
  rw [parseCard, trimmed, if_pos begins,
    split_joined are.1 (are.2 last List.mem_cons_self)]

theorem joined_begins {host : ModHost} {ls : List Str} (lines : ls.map utf8 = vcardLines host vc)
    {init : List Str} {last : Str}
    (split_ : ls = init ++ [last]) : "BEGIN:VCARD".toList <+: joined marks init last := by
  rw [vcardLines_eq] at lines
  obtain ⟨first, more, rfl, text, behind⟩ := List.map_eq_cons_iff.mp lines
  obtain rfl : first = "BEGIN:VCARD".toList := utf8_injective (text.trans (by decide))
  cases init with
  | nil =>
    rw [(List.cons.inj split_).2] at behind
    cases behind
  | cons l init =>
    obtain ⟨rfl, -⟩ := List.cons.inj split_
    rw [joined_cons]
    exact List.prefix_append _ _

/-- A card of the list is read without its end, and without the blanks in front of that. -/
theorem ShownCard.parse_piece (card : ShownCard served vc ps) {ls : List Str}
    (lines : ls.map utf8 = vcardLines served.host vc) {lead : Str}
    (blank : ∀ c ∈ lead, FrontendCards.isSpace c = true) :
    ∃ ls' : List Str, ls'.map utf8 = vcardLines served.host (FrontendLists.listed vc ps) ∧
      parseCard (FrontendCards.trim (lead ++ joined marks ls [])) =
        some ⟨ls'.filterMap fromLine⟩ := by
  obtain ⟨init, front, value, split_, lines'⟩ := ShownCard.last_line card lines
  have trimmed := ShownCard.listed card
  have begins := joined_begins lines split_
  have begins' := joined_begins lines' rfl
  have end_ : trimEnd (front ++ ':' :: trimEnd value) = front ++ ':' :: trimEnd value := by
    rw [trimEnd_solid front (by decide)]
    exact congrArg (fun t => front ++ ':' :: t) (List.rdropWhile_idempotent _ _)
  have text : FrontendCards.trim (lead ++ joined marks ls []) =
      joined marks init (front ++ ':' :: trimEnd value) := by
    have whole : joined marks ls [] =
        joined marks init (front ++ ':' :: value) ++ [marks.cr, marks.lf] := by
      rw [split_]
      simp [joined]
    have first : (joined marks ls []).head? = some 'B' := by
      obtain ⟨rest, text⟩ := begins
      rw [whole, ← text]
      rfl
    have assoc (t : Str) : joined marks init (front ++ ':' :: t) =
        (joined marks init [] ++ front) ++ ':' :: t := by simp [joined]
    rw [trim_blank blank, trim_front (by decide) first, whole, trimEnd_blank (by decide), assoc,
      trimEnd_solid _ (by decide), ← assoc]
  refine ⟨_, lines', ?_⟩
  rw [text]
  refine parseCard_lines ?_ begins' end_
  intro l mem
  refine trimmed.line ?_
  rw [← lines']
  exact List.mem_map_of_mem mem

/-- The text of one card is read with its end. -/
theorem ShownCard.parse_text (card : ShownCard served vc ps) {s : Str}
    (text : utf8 s = vc.toVcard served.host) :
    ∃ ls : List Str, ls.map utf8 = vcardLines served.host vc ∧
      parseCard s = some ⟨ls.filterMap fromLine⟩ := by
  rw [toVcard_eq served.host vc card.plain.valid card.editable.named] at text
  obtain ⟨ls, rest, rfl, lines, end_⟩ := utf8_joined text
  obtain rfl : rest = endToken := utf8_injective (end_.trans (by decide))
  have are : ∀ l ∈ ls ++ [endToken], Line marks l := by
    rw [List.forall_mem_append]
    refine ⟨fun l mem => card.line ?_, List.forall_mem_singleton.mpr line_endToken⟩
    rw [← lines]
    exact List.mem_map_of_mem mem
  have begins : "BEGIN:VCARD".toList <+: joined marks ls endToken := by
    have lines_ := lines
    rw [vcardLines_eq] at lines_
    obtain ⟨first, more, rfl, text, -⟩ := List.map_eq_cons_iff.mp lines_
    obtain rfl : first = "BEGIN:VCARD".toList := utf8_injective (text.trans (by decide))
    rw [joined_cons]
    exact List.prefix_append _ _
  have dropped : fromLine endToken = none := by decide
  refine ⟨ls, lines, ?_⟩
  rw [parseCard_lines are begins (by decide), List.filterMap_append,
    List.filterMap_cons_none dropped, List.filterMap_nil, List.append_nil]

end cards

/-! ## The answer of the server -/

/-- The cards of the loop of `get_user_rolodex`. -/
def rolodexList (s : Store) (localUser : Text) :
    List (Nat × CardRow) → Bool → List ContactCards.VC × Bool
  | [], foundProfile => ([], foundProfile)
  | (cardId, row) :: rest, foundProfile =>
    let card : ContactCards.VC :=
      { id := cardId, owner := localUser, user := row.user.getD [], updateTs := row.updateTs }
    let plain := foundProfile || decide (card.user ≠ card.owner)
    let card :=
      { card with props := if plain then contactProps s cardId else profileProps s cardId }
    let more := rolodexList s localUser rest (foundProfile || !plain)
    (card :: more.1, more.2)

theorem rolodexCards_eq (host : ModHost) (s : Store) (localUser : Text)
    (rows : List (Nat × CardRow)) : ∀ found, rolodexCards host s localUser rows found =
      ((rolodexList s localUser rows found).1.flatMap fun vc => vc.toVcard host ++ [newline],
        (rolodexList s localUser rows found).2) := by
  induction rows with
  | nil => exact fun _ => rfl
  | cons e rows ih =>
    intro found
    obtain ⟨cardId, row⟩ := e
    simp only [rolodexCards, rolodexList, ih, List.flatMap_cons, List.append_assoc,
      List.singleton_append]

/-- The cards of a user, each with what stands behind its text. -/
def contactList (host : ModHost) (s : Store) (localUser : Text) :
    List (ContactCards.VC × Text) :=
  let (cards, foundProfile) := rolodexList s localUser
    (s.cards.entries.filter fun e => e.2.owner = localUser) false
  cards.map (fun vc => (vc, [newline])) ++
    if foundProfile then [] else [((s.getProfile host localUser (some localUser) (some [])).1, [])]

theorem getUserRolodex_eq (host : ModHost) (s : Store) (localUser : Text) :
    (getUserRolodex host s localUser).1 =
      (contactList host s localUser).flatMap fun e => e.1.toVcard host ++ e.2 := by
  simp only [getUserRolodex, contactList, rolodexCards_eq, List.flatMap_append, List.flatMap_map]
  split <;> simp

theorem separator_blank {host : ModHost} {s : Store} {localUser : Text}
    {e : ContactCards.VC × Text} (mem : e ∈ contactList host s localUser) :
    e.2 = utf8 ['\n'] ∨ e.2 = utf8 [] := by
  simp only [contactList, List.mem_append, List.mem_map] at mem
  rcases mem with ⟨vc, -, rfl⟩ | mem
  · exact Or.inl rfl
  · split at mem
    · cases mem
    · rw [List.mem_singleton.mp mem]
      exact Or.inr rfl

theorem splitText_lf (lead rest : Str) (feeds : ∀ c ∈ lead, c = '\n') :
    splitText endToken 0 (lead ++ rest) =
      (splitText endToken 0 rest).modifyHead (lead ++ ·) := by
  obtain ⟨some_, -, lf⟩ := endToken_plain
  induction lead with
  | nil =>
    rw [List.nil_append]
    cases splitText endToken 0 rest with
    | nil => rfl
    | cons piece pieces => rfl
  | cons c lead ih =>
    obtain ⟨rfl, others⟩ := List.forall_mem_cons.mp feeds
    have feed := splitText_line [] (c := '\n') lf
      (fun inside => some_ (List.infix_nil.mp inside)) (lead ++ rest)
    rw [List.nil_append] at feed
    rw [List.cons_append, feed, ih others, List.modifyHead_modifyHead]
    rfl

theorem splitText_ne_nil (sep : Str) : ∀ (skip : Nat) (s : Str), splitText sep skip s ≠ []
  | 0, [] => List.cons_ne_nil _ _
  | _ + 1, [] => List.cons_ne_nil _ _
  | skip + 1, _ :: rest => splitText_ne_nil sep skip rest
  | 0, c :: rest => by
    rw [splitText]
    split
    · exact List.cons_ne_nil _ _
    · intro none_
      exact splitText_ne_nil sep 0 rest (List.modifyHead_eq_nil_iff.mp none_)

theorem column_injective : Function.Injective column := by
  rintro ⟨_, _, _, _, _⟩ ⟨_, _, _, _, _⟩ same
  simp only [column, ContactCards.CardProp.mk.injEq] at same
  obtain ⟨rfl, name, params, value, rfl⟩ := same
  rw [utf8_injective name, utf8_injective params, utf8_injective value]

/-- No line of the card has the end of a card in it. -/
def EndsOnce (host : ModHost) (vc : ContactCards.VC) : Prop :=
  ∀ line ∈ vcardLines host vc, ¬ lit "END:VCARD" <:+: line

/-- The page finds the cards of the answer in their order. -/
theorem parse_list {served : CardHost} {cards : List (ContactCards.VC × Text)}
    (shown : ∀ e ∈ cards, (∃ ps, ShownCard served e.1 ps) ∧ EndsOnce served.host e.1)
    (blank : ∀ e ∈ cards, e.2 = utf8 ['\n'] ∨ e.2 = utf8 []) (lead : Str) {s : Str}
    (feeds : ∀ c ∈ lead, c = '\n')
    (text : utf8 s = cards.flatMap fun e => e.1.toVcard served.host ++ e.2) :
    List.Forall₂ (fun e c => ∀ ps, ShownCard served e.1 ps → ∃ ls : List Str,
        ls.map utf8 = vcardLines served.host (listed e.1 ps) ∧ c = ⟨ls.filterMap fromLine⟩)
      cards (parseCards (lead ++ s)) := by
  obtain ⟨some_, -, -⟩ := endToken_plain
  induction cards generalizing lead s with
  | nil =>
    obtain rfl : s = [] := utf8_injective text
    have pieces : splitText endToken 0 (lead ++ []) = [lead ++ []] := splitText_lf lead [] feeds
    rw [parseCards, pieces]
    exact .nil
  | cons e cards ih =>
    obtain ⟨⟨⟨ps, card⟩, once⟩, shown⟩ := List.forall_mem_cons.mp shown
    obtain ⟨separator, blank⟩ := List.forall_mem_cons.mp blank
    obtain ⟨sep, feeds', sep_⟩ : ∃ sep : Str, (∀ c ∈ sep, c = '\n') ∧ e.2 = utf8 sep :=
      separator.elim (fun is_ => ⟨['\n'], by simp, is_⟩) fun is_ => ⟨[], by simp, is_⟩
    have whole : utf8 s = joinLines (vcardLines served.host e.1) (lit "END:VCARD" ++
        (e.2 ++ cards.flatMap fun e => e.1.toVcard served.host ++ e.2)) := by
      rw [text, List.flatMap_cons,
        toVcard_eq served.host e.1 card.plain.valid card.editable.named]
      simp [joinLines]
    obtain ⟨ls, rest, rfl, lines, ended⟩ := utf8_joined whole
    have end_ : lit "END:VCARD" = utf8 endToken := by decide
    rw [end_] at ended
    obtain ⟨more, rfl, behind⟩ := utf8_prefix _ (by decide) ended
    rw [sep_] at behind
    obtain ⟨s', rfl, text'⟩ := utf8_prefix _ (fun c mem => feeds' c mem ▸ by decide) behind
    have absent : ∀ l ∈ ls, ¬ endToken <:+: l := by
      rintro l mem ⟨before, after, is_⟩
      refine once (utf8 l) ?_ ⟨utf8 before, utf8 after, ?_⟩
      · rw [← lines]
        exact List.mem_map_of_mem mem
      · rw [end_, ← utf8_append, ← utf8_append, is_]
    have pieces : splitText endToken 0 (lead ++ joined marks ls (endToken ++ (sep ++ s'))) =
        (lead ++ joined marks ls []) :: splitText endToken 0 (sep ++ s') := by
      rw [splitText_lf lead _ feeds, splitText_joined absent, splitText_found some_]
      simp
    have blank_ : ∀ c ∈ lead, FrontendCards.isSpace c = true := fun c mem =>
      feeds c mem ▸ by decide
    obtain ⟨ls', lines', read⟩ := ShownCard.parse_piece card lines blank_
    rw [parseCards, pieces, List.dropLast_cons_of_ne_nil (splitText_ne_nil _ _ _),
      List.filterMap_cons_some (f := fun s => parseCard (FrontendCards.trim s)) read]
    refine .cons ?_ (ih shown blank _ feeds' text')
    intro ps' card'
    rw [List.map_injective_iff.mpr column_injective (card'.spelled.symm.trans card.spelled)]
    exact ⟨ls', lines', rfl⟩

/-! ## Saving again -/

/-- The page leaves the properties as they are. -/
def Kept (ps : List SpelledProp) : Prop := ∀ p ∈ ps, p.name ≠ vcard ∧ Canonical p.params

theorem savedFrom_eq_iff {host : ModHost} {vc : ContactCards.VC} {ps qs : List SpelledProp}
    (spelled : vc.props = ps.map column) : savedFrom host vc qs = { vc with updateTs := 0 } ↔
      64 ∉ vc.user ∧ (qs.filter fun p => p.name ≠ vcard).map keep = ps := by
  have user : (if vc.user = [] then [] else userOf host (userStr host vc)) = vc.user ↔
      64 ∉ vc.user := by
    rw [userOf_userStr]
    split
    next empty => simp [empty]
    · split
      next foreign =>
        refine iff_of_false ?_ (not_not.mpr foreign)
        intro same
        have lengths := congrArg List.length same
        have at_ : (lit "@").length = 1 := rfl
        rw [userStr, List.length_append, List.length_append, at_] at lengths
        omega
      next own => exact iff_of_true rfl own
  rw [← user, ← (List.map_injective_iff.mpr column_injective).eq_iff, ← spelled]
  constructor
  · intro same
    exact ⟨congrArg ContactCards.VC.user same, congrArg ContactCards.VC.props same⟩
  · rintro ⟨user_, props⟩
    rw [savedFrom, returned, user_, props]

theorem filter_keep_iff (ps : List SpelledProp) :
    (ps.filter fun p => p.name ≠ vcard).map keep = ps ↔ Kept ps := by
  have params (p : SpelledProp) : p.keep = p ↔ Canonical p.params := by
    rw [← kept_eq_iff]
    constructor
    · exact fun same => congrArg SpelledProp.params same
    · intro same
      rw [keep, same]
  constructor
  · intro same
    have length := congrArg List.length same
    rw [List.length_map] at length
    have all := List.length_filter_eq_length_iff.mp length
    rw [List.filter_eq_self.mpr all] at same
    intro p mem
    refine ⟨by simpa using all p mem, (params p).mp ?_⟩
    have fixed : ∀ q ∈ ps, keep q = q := by
      refine List.map_inj_left.mp ?_
      rw [same]
      exact (List.map_id ps).symm
    exact fixed p mem
  · intro kept_
    have all : ∀ p ∈ ps, decide (p.name ≠ vcard) = true := fun p mem =>
      decide_eq_true (kept_ p mem).1
    rw [List.filter_eq_self.mpr all]
    refine (List.map_congr_left ?_).trans (List.map_id ps)
    exact fun p mem => (params p).mpr (kept_ p mem).2

/-- The last value has no blanks behind it. -/
def Closed (ps : List SpelledProp) : Prop := ∀ p, ps.getLast? = some p → trimEnd p.value = p.value

theorem filter_keep_trimLast_iff (ps : List SpelledProp) :
    ((trimLast ps).filter fun p => p.name ≠ vcard).map keep = ps ↔ Kept ps ∧ Closed ps := by
  rcases List.eq_nil_or_concat ps with rfl | ⟨init, p, rfl⟩
  · exact iff_of_true rfl ⟨by simp [Kept], by simp [Closed]⟩
  · rw [List.concat_eq_append]
    have closed : trimEnd p.value = p.value → trimLast (init ++ [p]) = init ++ [p] := by
      intro same
      rw [trimLast_concat, same]
    constructor
    · intro same
      have length := congrArg List.length same
      have whole : (trimLast (init ++ [p])).length = (init ++ [p]).length := by
        rw [trimLast_concat]
        simp
      rw [List.length_map, ← whole] at length
      have all := List.filter_eq_self.mpr (List.length_filter_eq_length_iff.mp length)
      -- the last value is the one of the list
      have last := same
      rw [all, trimLast_concat, List.map_append] at last
      have ends := (List.append_inj_right' last rfl)
      have value_ : trimEnd p.value = p.value :=
        congrArg SpelledProp.value (List.cons.inj ends).1
      rw [closed value_, filter_keep_iff] at same
      refine ⟨same, ?_⟩
      intro q is_
      rw [List.getLast?_concat] at is_
      obtain rfl := Option.some.inj is_
      exact value_
    · rintro ⟨kept_, ended⟩
      rw [closed (ended p (List.getLast?_concat))]
      exact (filter_keep_iff _).mpr kept_

/-- Every card of the list of a user is one on the page, in the same order. What is posted when
such a card is saved as it is differs from the card exactly where the page does not keep it. -/
theorem contact_list_saved (served : CardHost) (s : Store) (localUser : Text) {page : Str}
    (text : utf8 page = (getUserRolodex served.host s localUser).1)
    (shown : ∀ e ∈ contactList served.host s localUser,
      (∃ ps, ShownCard served e.1 ps) ∧ EndsOnce served.host e.1) :
    List.Forall₂ (fun e c => ∀ ps, ShownCard served e.1 ps →
        ContactsMod.posted served.host e.1.owner (utf8 (vCardString c)) =
          savedFrom served.host e.1 (trimLast ps) ∧
        (ContactsMod.posted served.host e.1.owner (utf8 (vCardString c)) =
          { e.1 with updateTs := 0 } ↔ 64 ∉ e.1.user ∧ Kept ps ∧ Closed ps))
      (contactList served.host s localUser) (parseCards page) := by
  rw [getUserRolodex_eq] at text
  have cards := parse_list shown (fun e => separator_blank) [] (by simp) text
  refine cards.imp ?_
  intro e c read ps card
  obtain ⟨ls, lines, rfl⟩ := read ps card
  have posted := (ShownCard.listed card).posted lines
  have same : savedFrom served.host (listed e.1 ps) (trimLast ps) =
      savedFrom served.host e.1 (trimLast ps) := rfl
  have owner : (listed e.1 ps).owner = e.1.owner := rfl
  rw [same, owner] at posted
  rw [posted, savedFrom_eq_iff card.spelled, filter_keep_trimLast_iff]
  exact ⟨rfl, Iff.rfl⟩

/-- Bob's profile, with a parameter that has no value and a blank at the end. -/
def bobsStore : Store :=
  (Store.empty.saveContact { demoHost.host with now := 1700000000 }
    { owner := "bob", user := "bob"
      props := [⟨-1, "FN", [], "Bob", 3⟩, ⟨-1, "NOTE", "LANGUAGE=en;draft", "a:b ", 0⟩] }).2.2

def bobsProps : List SpelledProp :=
  [{ id := 1, name := "FN".toList, value := "Bob".toList, visibility := 3 },
    { id := 2, name := "NOTE".toList, params := "LANGUAGE=en;draft".toList, value := "a:b ".toList }]

def bobsCard : ContactCards.VC :=
  { id := 1, owner := "bob", user := "bob", updateTs := 1700000000, props := bobsProps.map column }

def bobsPage : Str :=
  "BEGIN:VCARD\r\nVERSION:4.0\r\nSOURCE:https://a.net/mods/contacts/id/1\r\nUID:1\r\n".toList ++
    "X-FIY-PROFILE:bob@a.net\r\nX-SOCIALPROFILE;TYPE=fiy:bob@a.net\r\n".toList ++
    "REV:20231114T221320Z\r\nFN;X-FIY-VISIBILITY=3;X-FIY-ID=1:Bob\r\n".toList ++
    "NOTE;LANGUAGE=en;draft;X-FIY-VISIBILITY=0;X-FIY-ID=2:a:b \r\nEND:VCARD\n".toList

theorem bobsCard_shown : ShownCard demoHost bobsCard bobsProps := by
  have props : ∀ p ∈ bobsProps,
      (p.column.name ∉ specialNames ∧ Unbroken p.column.name) ∧ Unbroken p.column.value ∧
        (Unbroken p.column.params ∧ 58 ∉ p.column.params ∧
          ∀ part ∈ paramParts p.column.params, part ≠ [] ∧ ¬ lit "X-FIY-" <+: part) ∧
        (0 ≤ p.column.visibility ∧ p.column.visibility ≤ 3) ∧ -1 ≤ p.column.id ∧
        p.column.id ≤ 9223372036854775807 := by
    decide +kernel
  have plain : ∀ p ∈ bobsProps,
      (58 ∉ p.column.name ∧ 59 ∉ p.column.name ∧
        ∀ b, p.column.name.head? = some b → isSpace b = false) ∧
      (p.column.name = "X-SOCIALPROFILE" →
        ∀ part ∈ paramParts p.column.params, ¬ lit "TYPE=fiy" <+: part) := by
    decide +kernel
  have shown : ∀ p ∈ bobsProps, FrontendCards.trim p.name = p.name ∧
      ∀ part ∈ paramStrs p.params, ¬ "X-FIY-".toList <+: FrontendCards.trim part ∧
        (p.name = "X-SOCIALPROFILE".toList →
          ¬ "TYPE=fiy".toList <+: FrontendCards.trim part) := by
    decide +kernel
  have stored : ∀ q ∈ bobsCard.props, EditableProp q ∧ PlainProp q := by
    intro q column_
    obtain ⟨p, mem, rfl⟩ := List.mem_map.mp column_
    obtain ⟨name, value, params, visibility, id_⟩ := props p mem
    obtain ⟨name', params'⟩ := plain p mem
    exact ⟨⟨name, value, params, visibility, id_⟩, name', params'⟩
  refine ⟨⟨?_, fun q mem => (stored q mem).1, by decide +kernel, by decide +kernel⟩,
    ⟨by decide +kernel, fun q mem => (stored q mem).2, Or.inr (by decide +kernel)⟩, rfl,
    fun p mem => ⟨(shown p mem).1, (shown p mem).2⟩⟩
  exact ⟨_, List.mem_cons_self, Or.inr (by decide +kernel)⟩

/-- The card is on the page, and it is another one when it was saved. -/
theorem bobs_list_saved : ∃ c, parseCards bobsPage = [c] ∧
    ContactsMod.posted demoHost.host "bob" (utf8 (vCardString c)) ≠
      { bobsCard with updateTs := 0 } := by
  have list : contactList demoHost.host bobsStore "bob" = [(bobsCard, [newline])] := by
    decide +kernel
  have once : EndsOnce demoHost.host bobsCard := by
    have all : ∀ line ∈ vcardLines demoHost.host bobsCard, ¬ lit "END:VCARD" <:+: line := by
      decide +kernel
    exact all
  have text : utf8 bobsPage = (getUserRolodex demoHost.host bobsStore "bob").1 := by
    decide +kernel
  have saved := contact_list_saved demoHost bobsStore "bob" text
    (by
      rw [list]
      exact List.forall_mem_singleton.mpr ⟨⟨bobsProps, bobsCard_shown⟩, once⟩)
  rw [list] at saved
  obtain ⟨c, rest, first, nothing, page⟩ := List.forall₂_cons_left_iff.mp saved
  cases nothing
  refine ⟨c, page, fun same => ?_⟩
  have closed := ((first bobsProps bobsCard_shown).2.mp same).2.2
  have value := closed _ rfl
  exact absurd value (by decide)

/-- The same for one card, where nothing is cut. -/
theorem card_saved {served : CardHost} {vc : ContactCards.VC} {ps : List SpelledProp}
    (card : ShownCard served vc ps) {page : Str} (text : utf8 page = vc.toVcard served.host) :
    ∃ c, parseCard page = some c ∧
      ContactsMod.posted served.host vc.owner (utf8 (vCardString c)) =
        savedFrom served.host vc ps ∧
      (ContactsMod.posted served.host vc.owner (utf8 (vCardString c)) = { vc with updateTs := 0 } ↔
        64 ∉ vc.user ∧ Kept ps) := by
  obtain ⟨ls, lines, read⟩ := ShownCard.parse_text card text
  refine ⟨_, read, card.posted lines, ?_⟩
  rw [card.posted lines, savedFrom_eq_iff card.spelled, filter_keep_iff]

/-- The note has lost a parameter. -/
theorem bobs_card_saved : ∃ c, parseCard bobsPage.dropLast = some c ∧
    ContactsMod.posted demoHost.host "bob" (utf8 (vCardString c)) ≠
      { bobsCard with updateTs := 0 } := by
  have text : utf8 bobsPage.dropLast = bobsCard.toVcard demoHost.host := by decide +kernel
  obtain ⟨c, read, -, same_iff⟩ := card_saved bobsCard_shown text
  refine ⟨c, read, fun same => ?_⟩
  have kept_ := (kept_eq_iff _).mpr ((same_iff.mp same).2 _ (List.mem_cons_of_mem _
    List.mem_cons_self)).2
  exact absurd kept_ (by decide +kernel)

end FrontendLists
