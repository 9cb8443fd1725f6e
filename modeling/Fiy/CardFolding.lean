import Fiy.CardTexts

/-!
# Folded cards

What `VC::parse` reads of a card whose content lines were folded. Line ends of one byte are
removed together with the blank behind them. Of `\r\n` the first byte stays, and either ends
the line there or becomes part of it.
-/

namespace CardFolding

open ByteStrings WebText ModLibrary ContactCards ContactCards.VC CardTexts

/-- Line ends with a blank are put into content lines. The flag says that a byte of a line
stands before. -/
inductive Folded (eol : Text) : Bool → Text → Text → Prop
  | nil {inside} : Folded eol inside [] []
  | byte {inside t t'} (b : Byte) (other : b ≠ 13 ∧ b ≠ newline) (rest : Folded eol true t t') :
      Folded eol inside (b :: t) (b :: t')
  | lineEnd {inside t t'} (b : Byte) (end_ : b = 13 ∨ b = newline) (rest : Folded eol false t t') :
      Folded eol inside (b :: t) (b :: t')
  | fold {t t'} (rest : Folded eol true t t') : Folded eol true t (eol ++ 32 :: t')

namespace Folded
variable {eol t t' : Text} {inside : Bool}

theorem refl (eol : Text) (inside : Bool) (t : Text) : Folded eol inside t t := by
  induction t generalizing inside with
  | nil => exact .nil
  | cons b t ih =>
    by_cases end_ : b = 13 ∨ b = newline
    · exact .lineEnd b end_ (ih false)
    · exact .byte b (not_or.mp end_) (ih true)

/-- One fold behind a byte of a line. -/
theorem once (front : Text) {b : Byte} (other : b ≠ 13 ∧ b ≠ newline) (rest : Text) :
    Folded eol inside (front ++ b :: rest) (front ++ b :: (eol ++ 32 :: rest)) := by
  induction front generalizing inside with
  | nil => exact .byte b other (.fold (refl eol true rest))
  | cons c front ih =>
    by_cases end_ : c = 13 ∨ c = newline
    · exact .lineEnd c end_ ih
    · exact .byte c (not_or.mp end_) ih

theorem mem_of_mem (folded : Folded eol inside t t') {b : Byte} (mem : b ∈ t) : b ∈ t' := by
  induction folded with
  | nil => exact mem
  | byte c _ _ ih =>
    rcases List.mem_cons.mp mem with rfl | mem
    · exact List.mem_cons_self
    · exact List.mem_cons_of_mem c (ih mem)
  | lineEnd c _ _ ih =>
    rcases List.mem_cons.mp mem with rfl | mem
    · exact List.mem_cons_self
    · exact List.mem_cons_of_mem c (ih mem)
  | fold _ ih => exact List.mem_append_right _ (List.mem_cons_of_mem 32 (ih mem))

/-- Only blanks are put in. -/
theorem all_blank (blank : ∀ b ∈ eol, isBlank b = true) (folded : Folded eol inside t t')
    (all : ∀ b ∈ t, isBlank b = true) : ∀ b ∈ t', isBlank b = true := by
  induction folded with
  | nil => exact all
  | byte c _ _ ih =>
    obtain ⟨first, all⟩ := List.forall_mem_cons.mp all
    exact List.forall_mem_cons.mpr ⟨first, ih all⟩
  | lineEnd c _ _ ih =>
    obtain ⟨first, all⟩ := List.forall_mem_cons.mp all
    exact List.forall_mem_cons.mpr ⟨first, ih all⟩
  | fold _ ih =>
    rw [List.forall_mem_append]
    exact ⟨blank, List.forall_mem_cons.mpr ⟨rfl, ih all⟩⟩

/-- Blanks in front are removed with their folds. -/
theorem dropWhile (blank : ∀ b ∈ eol, isBlank b = true) (folded : Folded eol inside t t') :
    Folded eol false (t.dropWhile isBlank) (t'.dropWhile isBlank) := by
  induction folded with
  | nil => exact .nil
  | byte b other rest ih =>
    by_cases first : isBlank b = true
    · rwa [List.dropWhile_cons_of_pos first, List.dropWhile_cons_of_pos first]
    · rw [List.dropWhile_cons_of_neg first, List.dropWhile_cons_of_neg first]
      exact .byte b other rest
  | lineEnd b end_ rest ih =>
    have first : isBlank b = true := by
      rcases end_ with rfl | rfl
      · rfl
      · rfl
    rwa [List.dropWhile_cons_of_pos first, List.dropWhile_cons_of_pos first]
  | fold _ ih =>
    rwa [List.dropWhile_append_of_pos blank, List.dropWhile_cons_of_pos rfl]

theorem rdropWhile_append (p : Byte → Bool) (front t : Text) : (front ++ t).rdropWhile p =
    if t.rdropWhile p = [] then front.rdropWhile p else front ++ t.rdropWhile p := by
  simp only [List.rdropWhile, List.reverse_append, List.dropWhile_append, List.isEmpty_iff,
    List.reverse_eq_nil_iff]
  split
  · rfl
  · rw [List.reverse_append, List.reverse_reverse]

theorem rdropWhile_cons (p : Byte → Bool) (b : Byte) (t : Text) : (b :: t).rdropWhile p =
    if t.rdropWhile p = [] then [b].rdropWhile p else b :: t.rdropWhile p :=
  rdropWhile_append p [b] t

/-- Blanks at the end are removed with their folds. -/
theorem rdropWhile (blank : ∀ b ∈ eol, isBlank b = true) (folded : Folded eol inside t t') :
    Folded eol inside (t.rdropWhile isBlank) (t'.rdropWhile isBlank) := by
  have same : ∀ {inside t t'}, Folded eol inside t t' →
      (t.rdropWhile isBlank = [] ↔ t'.rdropWhile isBlank = []) := by
    intro inside t t' folded
    rw [List.rdropWhile_eq_nil_iff, List.rdropWhile_eq_nil_iff]
    exact ⟨folded.all_blank blank, fun all b mem => all b (folded.mem_of_mem mem)⟩
  induction folded with
  | nil => exact .nil
  | @byte _ t t' b other rest ih =>
    rw [rdropWhile_cons _ _ t, rdropWhile_cons _ _ t']
    by_cases empty : t.rdropWhile isBlank = []
    · rw [if_pos empty, if_pos ((same rest).mp empty)]
      exact refl eol _ _
    · rw [if_neg empty, if_neg (mt (same rest).mpr empty)]
      exact .byte b other ih
  | @lineEnd _ t t' b end_ rest ih =>
    rw [rdropWhile_cons _ _ t, rdropWhile_cons _ _ t']
    by_cases empty : t.rdropWhile isBlank = []
    · rw [if_pos empty, if_pos ((same rest).mp empty)]
      exact refl eol _ _
    · rw [if_neg empty, if_neg (mt (same rest).mpr empty)]
      exact .lineEnd b end_ ih
  | @fold t t' rest ih =>
    have split_ : eol ++ 32 :: t' = (eol ++ [32]) ++ t' := by simp
    rw [split_, rdropWhile_append]
    by_cases empty : t.rdropWhile isBlank = []
    · have all : ∀ b ∈ eol ++ [32], isBlank b = true := by
        rw [List.forall_mem_append]
        exact ⟨blank, List.forall_mem_singleton.mpr rfl⟩
      rw [if_pos ((same rest).mp empty), List.rdropWhile_eq_nil_iff.mpr all, empty]
      exact .nil
    · rw [if_neg (mt (same rest).mpr empty), List.append_assoc]
      exact .fold ih

theorem trim (blank : ∀ b ∈ eol, isBlank b = true) (folded : Folded eol inside t t') :
    Folded eol false (WebText.trim t) (WebText.trim t') :=
  (folded.dropWhile blank).rdropWhile blank

end Folded

/-! ## Line ends of one byte -/

/-- Folds with one byte are removed wherever they are. Behind a line end no fold is first,
and this is what carries the induction over a line end that takes the next byte. -/
theorem unfoldLines_folded {inside : Bool} {t t' : Text}
    (folded : Folded [newline] inside t t') : unfoldLines t' = unfoldLines t ∧
      (inside = false → unfoldLines (newline :: t') = unfoldLines (newline :: t)) := by
  induction folded with
  | nil => exact ⟨rfl, fun _ => rfl⟩
  | @byte _ t t' b other rest ih =>
    have kept : unfoldLines (b :: t') = unfoldLines (b :: t) := by
      rw [unfoldLines_cons other.2, ih.1, ← unfoldLines_cons other.2]
    refine ⟨kept, fun _ => ?_⟩
    by_cases blank : isSpace b = true
    · rw [unfoldLines_blank blank, unfoldLines_blank blank, ih.1]
    · have solid : ∀ rest, startsLine (b :: rest) = true := fun rest => by simp [startsLine, blank]
      rw [unfoldLines_solid (solid _), unfoldLines_solid (solid _), kept]
  | lineEnd b end_ rest ih =>
    have blank : isSpace b = true := by
      rcases end_ with rfl | rfl
      · rfl
      · rfl
    refine ⟨?_, fun _ => by rw [unfoldLines_blank blank, unfoldLines_blank blank, ih.1]⟩
    rcases end_ with rfl | rfl
    · have other : (13 : Byte) ≠ newline := by decide
      rw [unfoldLines_cons other, unfoldLines_cons other, ih.1]
    · exact ih.2 rfl
  | fold rest ih =>
    refine ⟨?_, fun outside => by cases outside⟩
    rw [List.singleton_append, unfoldLines_blank rfl, ih.1]

section reading
variable {host : ModHost} {card : VC} {t t' : Text}

/-- An accepted text begins as a card does. -/
theorem prefix_of_accepted (accepted : (readVcard host card t).1 = true) :
    lit "BEGIN:VCARD" <+: trim t := by
  by_contra other
  simp only [readVcard, if_neg other] at accepted
  cases accepted

theorem readVcard_eq (begins : lit "BEGIN:VCARD" <+: trim t) :
    readVcard host card t = readLines host card (cardLines (unfoldLines (trim t))) := by
  simp only [readVcard, if_pos begins]

/-- The beginning is looked for before the folds are removed. -/
theorem folded_reads_iff (accepted : (readVcard host card t).1 = true)
    (folded : Folded [newline] false t t') :
    readVcard host card t' = readVcard host card t ↔ lit "BEGIN:VCARD" <+: trim t' := by
  constructor
  · intro same
    rw [← same] at accepted
    exact prefix_of_accepted accepted
  · intro begins
    have blank : ∀ b ∈ [newline], isBlank b = true := List.forall_mem_singleton.mpr rfl
    have unfolded := (unfoldLines_folded (folded.trim blank)).1
    rw [readVcard_eq begins, readVcard_eq (prefix_of_accepted accepted), unfolded]

end reading

/-! ## Line ends of two bytes -/

/-- What is unfolded in front of a line end of two bytes does not depend on the line behind
it. -/
theorem unfoldLines_line (front : Text) : ∃ unfolded, ∀ rest, startsLine rest = true →
    unfoldLines (front ++ (crlf ++ rest)) = unfolded ++ newline :: unfoldLines rest := by
  induction front using unfoldLines.induct with
  | case1 =>
    refine ⟨[13], fun rest starts => ?_⟩
    rw [List.nil_append, unfoldLines_crlf starts]
    rfl
  | case2 b =>
    by_cases end_ : b = newline
    · refine ⟨[], fun rest starts => ?_⟩
      have two : [b] ++ (crlf ++ rest) = newline :: 13 :: (newline :: rest) := by
        rw [end_]
        rfl
      rw [two, unfoldLines_blank rfl, unfoldLines_solid starts]
      rfl
    · refine ⟨[b, 13], fun rest starts => ?_⟩
      rw [List.singleton_append, unfoldLines_cons end_, unfoldLines_crlf starts]
      rfl
  | case3 b next front removed ih =>
    obtain ⟨unfolded, ih⟩ := ih
    refine ⟨unfolded, fun rest starts => ?_⟩
    rw [List.cons_append, List.cons_append, removed.1, unfoldLines_blank removed.2, ih rest starts]
  | case4 b next front kept ih =>
    obtain ⟨unfolded, ih⟩ := ih
    refine ⟨b :: unfolded, fun rest starts => ?_⟩
    rw [List.cons_append, List.cons_append, unfoldLines, if_neg kept, ← List.cons_append,
      ih rest starts, List.cons_append]

theorem startsLine_append_newline (front rest : Text) :
    startsLine (front ++ newline :: rest) = startsLine front := by
  cases front with
  | nil => rfl
  | cons b front => rfl

/-- Nor do the lines in front of it. -/
theorem cardLines_line (front : Text) : ∃ line lines, ∀ rest, startsLine rest = true →
    cardLines (front ++ newline :: rest) = line :: (lines ++ cardLines rest) := by
  induction front with
  | nil =>
    refine ⟨[], [], fun rest starts => ?_⟩
    have single : ¬ (newline = 13 ∧ rest.head? = some newline ∧ startsLine rest.tail = true) :=
      fun h => absurd h.1 (by decide)
    rw [List.nil_append, cardLines_cons, if_neg single, if_pos ⟨Or.inr rfl, starts⟩]
    rfl
  | cons b front ih =>
    obtain ⟨line, lines, ih⟩ := ih
    have double : ∀ rest, startsLine rest = true →
        ((b = 13 ∧ (front ++ newline :: rest).head? = some newline ∧
          startsLine (front ++ newline :: rest).tail = true) ↔
        (b = 13 ∧ (front = [] ∨ (front.head? = some newline ∧ startsLine front.tail = true)))) := by
      intro rest starts
      cases front with
      | nil => simp [starts]
      | cons c front =>
        rw [List.cons_append, List.tail_cons, startsLine_append_newline]
        simp
    by_cases both : b = 13 ∧ (front = [] ∨ (front.head? = some newline ∧
        startsLine front.tail = true))
    · refine ⟨line, lines, fun rest starts => ?_⟩
      rw [List.cons_append, cardLines_cons, if_pos ((double rest starts).mpr both), ih rest starts]
    · by_cases ends : (b = 13 ∨ b = newline) ∧ startsLine front = true
      · refine ⟨[], line :: lines, fun rest starts => ?_⟩
        rw [List.cons_append, cardLines_cons, if_neg (mt (double rest starts).mp both),
          startsLine_append_newline, if_pos ends, ih rest starts, List.cons_append]
      · refine ⟨b :: line, lines, fun rest starts => ?_⟩
        rw [List.cons_append, cardLines_cons, if_neg (mt (double rest starts).mp both),
          startsLine_append_newline, if_neg ends, ih rest starts]

/-- The text in front of a line: nothing, or it ends with a line end. -/
def EndsLine (front : Text) : Prop := front = [] ∨ crlf <:+ front

theorem startsLine_unfoldLines {t : Text} (starts : startsLine t = true) :
    startsLine (unfoldLines t) = true := by
  cases t with
  | nil => cases starts
  | cons b t =>
    have other : b ≠ newline := by
      rintro rfl
      cases starts
    rw [unfoldLines_cons other]
    exact starts

/-- The lines of a text are those in front of a line and those from it on. -/
theorem lines_of_endsLine {front : Text} (ends : EndsLine front) : ∃ before, ∀ rest,
    startsLine rest = true →
      cardLines (unfoldLines (front ++ rest)) = before ++ cardLines (unfoldLines rest) := by
  rcases ends with rfl | ⟨front, rfl⟩
  · exact ⟨[], fun rest _ => rfl⟩
  · obtain ⟨unfolded, unfold_⟩ := unfoldLines_line front
    obtain ⟨line, lines, lines_⟩ := cardLines_line unfolded
    refine ⟨line :: lines, fun rest starts => ?_⟩
    rw [List.append_assoc, unfold_ rest starts, lines_ _ (startsLine_unfoldLines starts)]
    rfl

theorem cardLines_append {front : Text} (plain : Unbroken front) (rest : Text) :
    ∃ line lines, cardLines rest = line :: lines ∧
      cardLines (front ++ rest) = (front ++ line) :: lines := by
  induction front with
  | nil =>
    obtain ⟨line, lines, rest_⟩ := List.exists_cons_of_ne_nil (cardLines_ne_nil rest)
    exact ⟨line, lines, rest_, rest_⟩
  | cons b front ih =>
    obtain ⟨first, plain⟩ := List.forall_mem_cons.mp plain
    obtain ⟨line, lines, rest_, here⟩ := ih plain
    refine ⟨line, lines, rest_, ?_⟩
    rw [List.cons_append, cardLines_cons, if_neg fun h => first.1 h.1,
      if_neg fun h => h.1.elim first.1 first.2, here]
    rfl

theorem mem_of_mem_unfoldLines {t : Text} {b : Byte} (mem : b ∈ unfoldLines t) : b ∈ t := by
  induction t using unfoldLines.induct with
  | case1 => exact mem
  | case2 c => exact mem
  | case3 c next t removed ih =>
    rw [unfoldLines, if_pos removed] at mem
    exact List.mem_cons_of_mem c (List.mem_cons_of_mem next (ih mem))
  | case4 c next t kept ih =>
    rw [unfoldLines, if_neg kept] at mem
    rcases List.mem_cons.mp mem with rfl | mem
    · exact List.mem_cons_self
    · exact List.mem_cons_of_mem c (ih mem)

theorem mem_of_mem_cardLines {t line : Text} {b : Byte} (listed : line ∈ cardLines t)
    (mem : b ∈ line) : b ∈ t := by
  induction t generalizing line with
  | nil =>
    obtain rfl := List.mem_singleton.mp listed
    exact mem
  | cons c t ih =>
    rw [cardLines_cons] at listed
    split_ifs at listed
    · exact List.mem_cons_of_mem c (ih listed mem)
    · rcases List.mem_cons.mp listed with rfl | listed
      · cases mem
      · exact List.mem_cons_of_mem c (ih listed mem)
    · obtain ⟨first, lines, rest⟩ := List.exists_cons_of_ne_nil (cardLines_ne_nil t)
      rw [rest] at listed ih
      rcases List.mem_cons.mp listed with rfl | listed
      · rcases List.mem_cons.mp mem with rfl | mem
        · exact List.mem_cons_self
        · exact List.mem_cons_of_mem c (ih List.mem_cons_self mem)
      · exact List.mem_cons_of_mem c (ih (List.mem_cons_of_mem first listed) mem)

/-- The text behind a line: nothing, or a line end and another line. -/
def StartsEnd (rest : Text) : Prop :=
  rest = [] ∨ ∃ next, rest = crlf ++ next ∧ startsLine next = true

/-- What is left of a line has no more colons than the line. -/
theorem firstLine_colon {piece rest : Text} (absent : 58 ∉ piece) (ends : StartsEnd rest) :
    ∃ line lines, cardLines (unfoldLines (piece ++ rest)) = line :: lines ∧ 58 ∉ line := by
  rcases ends with rfl | ⟨next, rfl, starts⟩
  · obtain ⟨line, lines, here⟩ :=
      List.exists_cons_of_ne_nil (cardLines_ne_nil (unfoldLines (piece ++ [])))
    refine ⟨line, lines, here, fun mem => absent ?_⟩
    have listed : line ∈ cardLines (unfoldLines (piece ++ [])) := here ▸ List.mem_cons_self
    rw [List.append_nil] at listed
    exact mem_of_mem_unfoldLines (mem_of_mem_cardLines listed mem)
  · obtain ⟨unfolded, unfold_⟩ := unfoldLines_line piece
    obtain ⟨line, lines, lines_⟩ := cardLines_line unfolded
    refine ⟨line, _, by rw [unfold_ next starts, lines_ _ (startsLine_unfoldLines starts)], ?_⟩
    -- the line is the same whatever comes behind it, and then it is a line of a text without colon
    intro mem
    have listed : line ∈ cardLines (unfoldLines (piece ++ (crlf ++ [65]))) := by
      rw [unfold_ [65] rfl, lines_ _ rfl]
      exact List.mem_cons_self
    rcases List.mem_append.mp (mem_of_mem_unfoldLines (mem_of_mem_cardLines listed mem)) with
      inside | outside
    · exact absent inside
    · exact absurd outside (by decide)

/-- Of a fold the first byte of the line end stays: the line ends there, or goes on with
that byte. -/
theorem cardLines_fold {front : Text} (plain : Unbroken front) (rest : Text) :
    ∃ more lines, cardLines (unfoldLines (front ++ (crlf ++ 32 :: rest))) =
        (front ++ more) :: lines ∧
      (more = [] ∨ more.head? = some 13) ∧
      (startsLine rest = true → more = [] ∧ lines = cardLines (unfoldLines rest)) := by
  have other : newline ∉ front ++ [13] := by
    rw [List.mem_append, not_or]
    exact ⟨fun mem => (plain newline mem).2 rfl, by decide⟩
  have split_ : front ++ (crlf ++ 32 :: rest) = (front ++ [13]) ++ newline :: 32 :: rest := by
    rw [List.append_assoc]
    rfl
  obtain ⟨line, lines, rest_, here⟩ := cardLines_append plain (13 :: unfoldLines rest)
  refine ⟨line, lines, ?_, ?_⟩
  · rw [split_, unfoldLines_append other, unfoldLines_blank rfl, List.append_assoc]
    exact here
  · rw [cardLines_cons] at rest_
    split_ifs at rest_ with double ends
    · -- a line end stands behind the byte that stayed
      obtain ⟨more, tail⟩ : ∃ more, unfoldLines rest = newline :: more := by
        cases text : unfoldLines rest with
        | nil => simp [text] at double
        | cons b more =>
          rw [text, List.head?_cons, Option.some.injEq] at double
          exact ⟨more, by rw [double.2.1]⟩
      have single : ¬ (newline = 13 ∧ more.head? = some newline ∧ startsLine more.tail = true) :=
        fun h => absurd h.1 (by decide)
      have starts : startsLine more = true := by simpa [tail] using double.2.2
      rw [tail, cardLines_cons, if_neg single, if_pos ⟨Or.inr rfl, starts⟩] at rest_
      obtain rfl := (List.cons.inj rest_).1
      refine ⟨Or.inl rfl, fun solid => ?_⟩
      have starts_ := startsLine_unfoldLines solid
      rw [tail] at starts_
      cases starts_
    · obtain ⟨rfl, rfl⟩ := List.cons.inj rest_
      exact ⟨Or.inl rfl, fun _ => ⟨rfl, rfl⟩⟩
    · have continues : startsLine rest ≠ true := fun starts =>
        ends ⟨Or.inl rfl, startsLine_unfoldLines starts⟩
      refine ⟨Or.inr ?_, fun starts => absurd starts continues⟩
      split at rest_
      · obtain rfl := (List.cons.inj rest_).1
        rfl
      · obtain rfl := (List.cons.inj rest_).1
        rfl

section reading
variable {host : ModHost} {card : VC} {t t' : Text}

theorem readLines_append (front back : List Text) (card : VC) :
    readLines host card (front ++ back) = if (readLines host card front).1 = true
      then readLines host (readLines host card front).2 back else readLines host card front := by
  induction front generalizing card with
  | nil => rfl
  | cons line front ih =>
    rw [List.cons_append, readLines, readLines]
    cases readLine host card line with
    | none => rfl
    | some next => exact ih next

/-- The line is stored as this property. -/
def Stores (host : ModHost) (line : Text) (p : CardProp) : Prop :=
  ∀ card, readLine host card line = some { card with props := card.props ++ [p] }

/-- The part before the colon says whether a line is stored. -/
theorem readLine_field (host : ModHost) {field : Text} (absent : 58 ∉ field) :
    (∃ p : CardProp, ∀ value, Stores host (field ++ 58 :: value) { p with value := value }) ∨
    ∀ value card, ∃ next, readLine host card (field ++ 58 :: value) = some next ∧
      next.props = card.props := by
  unfold Stores readLine parseLine
  simp only [cut_append absent]
  split_ifs
  · exact Or.inr fun value card => ⟨_, rfl, rfl⟩
  · exact Or.inr fun value card => ⟨_, rfl, rfl⟩
  · exact Or.inr fun value card => ⟨_, rfl, rfl⟩
  · exact Or.inr fun value card => ⟨_, rfl, rfl⟩
  · exact Or.inr fun value card => ⟨_, rfl, rfl⟩
  · cases parseParams _ _ {} with
    | none => exact Or.inr fun value card => ⟨_, rfl, rfl⟩
    | some found =>
      refine Or.inl ⟨⟨found.id, field.takeWhile (· ≠ 59), found.params.tail, [],
        found.visibility⟩, fun value card => rfl⟩

/-- Properties are only added. -/
theorem props_readLine {next : VC} {line : Text} (read : readLine host card line = some next) :
    card.props <+: next.props := by
  cases parts : cut 58 line with
  | none =>
    rw [readLine, parts] at read
    cases read
  | some parts_ =>
    obtain ⟨field, value⟩ := parts_
    obtain ⟨rfl, absent⟩ := cut_eq_some_iff.mp parts
    rcases readLine_field host absent with ⟨p, stored⟩ | kept
    · obtain rfl := Option.some.inj ((stored value card).symm.trans read)
      exact List.prefix_append _ _
    · obtain ⟨next', read', props⟩ := kept value card
      obtain rfl := Option.some.inj (read'.symm.trans read)
      exact props ▸ List.prefix_rfl

theorem props_readLines (host : ModHost) (lines : List Text) (card : VC) :
    card.props <+: (readLines host card lines).2.props := by
  induction lines generalizing card with
  | nil => exact List.prefix_rfl
  | cons line lines ih =>
    rw [readLines]
    cases read : readLine host card line with
    | none => exact List.prefix_rfl
    | some next => exact (props_readLine read).trans (ih next)

theorem Stores.colon {line : Text} {p : CardProp} (stores : Stores host line p) :
    ∃ field value, 58 ∉ field ∧ line = field ++ 58 :: value := by
  have here := stores {}
  cases parts : cut 58 line with
  | none =>
    rw [readLine, parts] at here
    cases here
  | some parts_ => exact ⟨_, _, (cut_eq_some_iff.mp parts).2, (cut_eq_some_iff.mp parts).1⟩

/-- A longer line is stored with the longer value. -/
theorem Stores.append {line : Text} {p : CardProp} (stores : Stores host line p) (more : Text) :
    Stores host (line ++ more) { p with value := p.value ++ more } := by
  obtain ⟨field, value, absent, rfl⟩ := stores.colon
  rcases readLine_field host absent with ⟨q, stored⟩ | kept
  · have same := congrArg VC.props (Option.some.inj ((stores {}).symm.trans (stored value {})))
    have p_ : p = { q with value := value } := by simpa using same
    rw [List.append_assoc, p_]
    exact stored (value ++ more)
  · obtain ⟨next, read, props⟩ := kept value {}
    obtain rfl := Option.some.inj ((stores {}).symm.trans read)
    cases props

/-- The first fold stands in the value of a line that is stored, or it leaves a piece without
colon: in front of it, or from it to the end of the line. -/
def Noticed (host : ModHost) (t t' : Text) : Prop :=
  ∃ front line b rest rest', EndsLine front ∧ IsLine line ∧ (b ≠ 13 ∧ b ≠ newline) ∧
    t = front ++ (line ++ b :: rest) ∧ t' = front ++ (line ++ (crlf ++ 32 :: rest')) ∧
    ((∃ p, Stores host line p) ∨ startsLine rest' = true ∧ (58 ∉ line ∨
      ∃ piece after, rest' = piece ++ after ∧ 58 ∉ piece ∧ StartsEnd after))

/-- A line without colon ends the parse. -/
theorem readLines_refused {lines : List Text} {line : Text} (listed : line ∈ lines)
    (absent : 58 ∉ line) (card : VC) : (readLines host card lines).1 = false := by
  induction lines generalizing card with
  | nil => cases listed
  | cons first lines ih =>
    rw [readLines]
    cases read : readLine host card first with
    | none => rfl
    | some next =>
      rcases List.mem_cons.mp listed with rfl | listed
      · rw [readLine, cut_eq_none_iff.mpr absent] at read
        cases read
      · exact ih listed next

/-- Another value of a line that is stored is another property. -/
theorem stores_differs {line : Text} {p : CardProp} (stores : Stores host line p)
    {value value' : Text} (differ : value' ≠ value) (lines lines' : List Text) (card : VC) :
    readLines host card ((line ++ value') :: lines') ≠
      readLines host card ((line ++ value) :: lines) := by
  intro same
  rw [readLines_cons (stores.append _ card), readLines_cons (stores.append _ card)] at same
  have before := props_readLines host lines
    { card with props := card.props ++ [{ p with value := p.value ++ value }] }
  have before' := props_readLines host lines'
    { card with props := card.props ++ [{ p with value := p.value ++ value' }] }
  rw [← same] at before
  have equal := List.IsPrefix.eq_of_length
    (List.prefix_of_prefix_length_le before' before (by simp)) (by simp)
  exact differ (by simpa using equal)

/-- A fold that is noticed changes the answer or the properties. -/
theorem noticed_differs (accepted : (readVcard host card t).1 = true)
    (noticed : Noticed host (trim t) (trim t')) :
    readVcard host card t' ≠ readVcard host card t := by
  obtain ⟨front, line, b, rest, rest', ends, is, other, text, text', kind⟩ := noticed
  intro same
  have begins' : lit "BEGIN:VCARD" <+: trim t' := by
    rw [← same] at accepted
    exact prefix_of_accepted accepted
  have begins := prefix_of_accepted accepted
  obtain ⟨before, lines⟩ := lines_of_endsLine ends
  -- the line as it is, and as the fold leaves it
  have plain : Unbroken (line ++ [b]) := by
    intro c mem
    rcases List.mem_append.mp mem with mem | mem
    · exact is.plain c mem
    · rw [List.mem_singleton.mp mem]
      exact other
  obtain ⟨value, after, _, whole⟩ := cardLines_append plain (unfoldLines rest)
  obtain ⟨more, after', folded, left, solid⟩ := cardLines_fold is.plain rest'
  have unfolded : unfoldLines (line ++ b :: rest) = (line ++ [b]) ++ unfoldLines rest := by
    rw [← unfoldLines_append fun mem => (plain newline mem).2 rfl, List.append_assoc]
    rfl
  have at_ := lines _ (startsLine_append is.starts (b :: rest))
  have at' := lines _ (startsLine_append is.starts (crlf ++ 32 :: rest'))
  rw [unfolded, whole, ← text, List.append_assoc] at at_
  rw [folded, ← text'] at at'
  rw [readVcard_eq begins, at_, readLines_append] at accepted
  rw [readVcard_eq begins, readVcard_eq begins', at_, at', readLines_append,
    readLines_append] at same
  split_ifs at accepted same with first
  · rcases kind with ⟨p, stores⟩ | ⟨starts, pieces⟩
    · refine stores_differs stores ?_ after after' _ same
      rintro rfl
      rcases left with empty | return_
      · cases empty
      · exact other.1 (Option.some.inj return_)
    · obtain ⟨rfl, rfl⟩ := solid starts
      rw [List.append_nil] at same
      have refused : ∃ piece ∈ line :: cardLines (unfoldLines rest'), 58 ∉ piece := by
        rcases pieces with colon | ⟨piece, after, rfl, colon, ends_⟩
        · exact ⟨line, List.mem_cons_self, colon⟩
        · obtain ⟨piece, lines, here, colon⟩ := firstLine_colon colon ends_
          rw [here]
          exact ⟨piece, List.mem_cons_of_mem _ List.mem_cons_self, colon⟩
      obtain ⟨piece, listed, colon⟩ := refused
      rw [← same, readLines_refused listed colon] at accepted
      cases accepted
  · exact absurd accepted first

/-- Folds of one byte and a blank are undone exactly when the text still begins as a card. Of
those with two bytes the ones that are trimmed are, and the noticed ones are not. -/
theorem folding_read (accepted : (readVcard host card t).1 = true) :
    (∀ t', Folded [newline] false t t' →
      (readVcard host card t' = readVcard host card t ↔ lit "BEGIN:VCARD" <+: trim t')) ∧
    ∀ t', Folded crlf false t t' →
      (trim t' = trim t → readVcard host card t' = readVcard host card t) ∧
      (¬ lit "BEGIN:VCARD" <+: trim t' ∨ Noticed host (trim t) (trim t') →
        readVcard host card t' ≠ readVcard host card t) := by
  refine ⟨fun t' folded => folded_reads_iff accepted folded, fun t' _ => ⟨?_, ?_⟩⟩
  · intro trimmed
    rw [readVcard, readVcard, trimmed]
  · rintro (other | noticed) same
    · rw [← same] at accepted
      exact other (prefix_of_accepted accepted)
    · exact noticed_differs accepted noticed same

end reading

def demoHost : ModHost where
  domain := "a.net"
  baseUri := "https://a.net/mods/contacts"
  now := 0
  userInfo := fun _ => 0
  jsonString := some
  base64Decode := some

/-- A card with something inside of its note. -/
def noteCard (eol more : Text) : Text :=
  lit "BEGIN:VCARD" ++ eol ++ lit "FN:Bob" ++ eol ++ lit "NOTE:some te" ++ more ++ lit "xt" ++
    eol ++ lit "END:VCARD"

theorem noteCard_folded (eol : Text) :
    Folded eol false (noteCard eol []) (noteCard eol (eol ++ [32])) := by
  have note : lit "NOTE:some te" = lit "NOTE:some t" ++ [101] := by decide
  have before : ∀ more, noteCard eol more =
      (lit "BEGIN:VCARD" ++ eol ++ lit "FN:Bob" ++ eol ++ lit "NOTE:some t") ++
        101 :: (more ++ (lit "xt" ++ eol ++ lit "END:VCARD")) := by
    intro more
    rw [noteCard, note]
    simp only [List.append_assoc, List.cons_append, List.nil_append]
  have fold_ : (eol ++ [32]) ++ (lit "xt" ++ eol ++ lit "END:VCARD") =
      eol ++ 32 :: (lit "xt" ++ eol ++ lit "END:VCARD") := by
    rw [List.append_assoc, List.singleton_append]
  rw [before [], before (eol ++ [32]), fold_, List.nil_append]
  exact Folded.once _ (by decide) _

theorem note_folding :
    readVcard demoHost {} (noteCard [newline] [newline, 32]) =
      readVcard demoHost {} (noteCard [newline] []) ∧
    readVcard demoHost {} (noteCard crlf (crlf ++ [32])) ≠
      readVcard demoHost {} (noteCard crlf []) := by
  have accepted : ∀ eol ∈ [[newline], crlf],
      (readVcard demoHost {} (noteCard eol [])).1 = true := by decide +kernel
  have short := folding_read (accepted [newline] List.mem_cons_self)
  have long := folding_read (accepted crlf (List.mem_cons_of_mem _ List.mem_cons_self))
  refine ⟨(short.1 _ (noteCard_folded [newline])).mpr (by decide +kernel),
    (long.2 _ (noteCard_folded crlf)).2 (Or.inr ?_)⟩
  refine ⟨lit "BEGIN:VCARD" ++ crlf ++ lit "FN:Bob" ++ crlf, lit "NOTE:some te", 120,
    lit "t" ++ crlf ++ lit "END:VCARD", lit "xt" ++ crlf ++ lit "END:VCARD", Or.inr ?_,
    ⟨by decide +kernel, by decide +kernel⟩, by decide, by decide +kernel, by decide +kernel, ?_⟩
  · exact List.suffix_append _ _
  · exact Or.inl ⟨⟨-1, lit "NOTE", [], lit "some te", 0⟩, fun card => rfl⟩

/-- A folded note ends the parse, and a fold in the first line too. -/
theorem folding_not_undone :
    (¬ ∀ host card t t', (readVcard host card t).1 = true → Folded crlf false t t' →
      readVcard host card t' = readVcard host card t) ∧
    ¬ ∀ host card t t', (readVcard host card t).1 = true → Folded [newline] false t t' →
      readVcard host card t' = readVcard host card t := by
  constructor
  · intro undone
    have same := undone demoHost {} _ _ (by decide +kernel) (noteCard_folded crlf)
    exact absurd (congrArg Prod.fst same) (by decide +kernel)
  · intro undone
    have folded : Folded [newline] false
        (lit "BEGI" ++ 78 :: (lit ":VCARD" ++ newline :: lit "FN:B"))
        (lit "BEGI" ++ 78 :: ([newline] ++ 32 :: (lit ":VCARD" ++ newline :: lit "FN:B"))) :=
      Folded.once _ (by decide) _
    have same := undone demoHost {} _ _ (by decide +kernel) folded
    exact absurd (congrArg Prod.fst same) (by decide +kernel)

end CardFolding
