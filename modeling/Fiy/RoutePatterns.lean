import Fiy.CheckedLoops
import Fiy.TextViews

/-!
# Route patterns

The router of the mod library. A route is kept as its parts, an empty one for a parameter:
`match` is right for every list of parts, and `parse_route` does not come to the list of a
pattern.
-/

namespace RoutePatterns

open ByteStrings TextViews CheckedLoops

/-! ## What is meant -/

inductive Segment
  | param
  | literal (text : Text)
  deriving DecidableEq, Repr

/-- The two texts between slashes that stand for something else. -/
def segmentOf (text : Text) : Segment :=
  if text = [123, 125] then .param
  else if text = [92, 123, 125] then .literal [123, 125]
  else .literal text

/-- The segments of a path, without the empty ones. -/
def segments (path : Text) : List Text := (path.splitOn 47).filter fun text => decide (text ≠ [])

def patternSegments (pattern : Text) : List Segment := (segments pattern).map segmentOf

/-- A path has as many segments as the pattern, and its literal ones. -/
structure Fits (pattern : List Segment) (path : List Text) : Prop where
  length : path.length = pattern.length
  literal : ∀ p ∈ pattern.zip path, ∀ text, p.1 = .literal text → p.2 = text

/-- The segments where the pattern has parameters. -/
def paramsIn (pattern : List Segment) (path : List Text) : List Text :=
  (pattern.zip path).filterMap fun p => if p.1 = .param then some p.2 else none

/-! ## Routes -/

/-- What is kept of a part. -/
def partOf (part : Text) : Text :=
  if part = [123, 125] then [] else if part = [92, 123, 125] then [123, 125] else part

/-- One turn of `parse_route`. -/
def parseRouteTurn (path : Text) : Nat × List Text → Turn (Nat × List Text) (List Text)
  | (i, parts) => match find path 47 i with
    | none => .leave parts
    | some slash => .guard (substr path i (some (slash - i))) fun part =>
        .again (slash, parts ++ [partOf part])

/-- What `match` does with a segment: the parts up to `i` are passed. -/
def segmentTurn (parts : List Text) (start : Nat) (stop : Option Nat) (i : Nat)
    (result : List Text) (segment : Text) :
    Turn (Nat × Option Nat × Nat × List Text) (Option (List Text)) :=
  if segment = [] then .again (start, stop, i, result)
  else if parts.length ≤ i then .leave none
  else .guard parts[i]? fun part =>
    if part = [] then .again (start, stop, i + 1, result ++ [segment])
    else if segment ≠ part then .leave none
    else .again (start, stop, i + 1, result)

/-- One turn of `match`. Behind the last slash the loop ends. -/
def matchTurn (path : Text) (parts : List Text) :
    Nat × Option Nat × Nat × List Text →
      Turn (Nat × Option Nat × Nat × List Text) (Option (List Text))
  | (_, none, i, result) => .leave (if i ≠ parts.length then none else some result)
  | (start, some _, i, result) =>
    let stop := find path 47 start
    .guard (substr path start (stop.map (· - start))) fun segment =>
      segmentTurn parts (stop.elim 0 (· + 1)) stop i result segment

/-! ## Matching -/

/-- The segments of a path against the parts of a route. -/
def matchParts : List Text → List Text → Option (List Text)
  | [], [] => some []
  | part :: parts, segment :: path =>
    if part = [] then (matchParts parts path).map (segment :: ·)
    else if segment = part then matchParts parts path
    else none
  | _, _ => none

theorem segments_last {text : Text} (absent : 47 ∉ text) :
    segments text = if text = [] then [] else [text] := by
  rw [segments, List.splitOn_eq_singleton absent]
  by_cases empty : text = []
  · simp [empty]
  · simp [empty]

theorem segments_more {text after : Text} (absent : 47 ∉ text) :
    segments (text ++ 47 :: after) =
      if text = [] then segments after else text :: segments after := by
  rw [segments, List.splitOn_append_cons_self, List.splitOn_eq_singleton absent,
    List.singleton_append, List.filter_cons]
  by_cases empty : text = []
  · simp [empty, segments]
  · simp [empty, segments]

section matching
variable {path : Text} {start start' k : Nat} {stop : Option Nat} {rest : List Text}

/-- One segment, when the loop does right with the others. -/
theorem segment_ends {done left result : List Text} {segment : Text}
    (turn : matchTurn path (done ++ left) (start, some k, done.length, result) =
      segmentTurn (done ++ left) start' stop done.length result segment)
    (next : ∀ passed rest' result, passed ++ rest' = done ++ left →
      Ends (matchTurn path (done ++ left)) (start', stop, passed.length, result)
        ((matchParts rest' rest).map (result ++ ·))) :
    Ends (matchTurn path (done ++ left)) (start, some k, done.length, result)
      ((matchParts left (if segment = [] then rest else segment :: rest)).map (result ++ ·)) := by
  by_cases empty : segment = []
  · rw [segmentTurn, if_pos empty] at turn
    rw [if_pos empty, ends_of_again turn]
    exact next done left result rfl
  · rw [if_neg empty]
    cases left with
    | nil =>
      rw [segmentTurn, if_neg empty, if_pos (by simp)] at turn
      exact Ends.of_leave turn
    | cons part left =>
      have inside : ¬ (done ++ part :: left).length ≤ done.length := by simp
      have here : (done ++ part :: left)[done.length]? = some part := by simp
      have passed : (done ++ [part]).length = done.length + 1 := by simp
      have moved : done ++ [part] ++ left = done ++ part :: left := by simp
      rw [segmentTurn, if_neg empty, if_neg inside, here, Turn.guard_some] at turn
      rw [matchParts]
      by_cases param : part = []
      · have after := next (done ++ [part]) left (result ++ [segment]) moved
        rw [if_pos param] at turn
        rw [passed] at after
        rw [if_pos param, ends_of_again turn, Option.map_map]
        simpa [Function.comp_def] using after
      · rw [if_neg param] at turn ⊢
        by_cases same : segment = part
        · have after := next (done ++ [part]) left result moved
          rw [if_neg (not_not_intro same)] at turn
          rw [passed] at after
          rw [if_pos same, ends_of_again turn]
          exact after
        · rw [if_pos same] at turn
          rw [if_neg same]
          exact Ends.of_leave turn

/-- Behind the last slash. -/
theorem matchTurn_done (passed left result : List Text) :
    matchTurn path (passed ++ left) (start, none, passed.length, result) =
      .leave ((matchParts left []).map (result ++ ·)) := by
  cases left with
  | nil => simp [matchTurn, matchParts]
  | cons part left => simp [matchTurn, matchParts]

theorem match_ends_from (before rest : Text) (done left result : List Text) :
    Ends (matchTurn (before ++ rest) (done ++ left)) (before.length, some k, done.length, result)
      ((matchParts left (segments rest)).map (result ++ ·)) := by
  induction hlen : rest.length using Nat.strongRecOn generalizing before rest done left result k with
  | ind n ih =>
    cases hcut : cut 47 rest with
    | none =>
      have absent := cut_eq_none_iff.mp hcut
      have turn : matchTurn (before ++ rest) (done ++ left)
          (before.length, some k, done.length, result) =
            segmentTurn (done ++ left) 0 none done.length result rest := by
        simp only [matchTurn, find_at, hcut, Option.map_none, substr_rest, Turn.guard_some,
          Option.elim_none]
      rw [segments_last absent]
      apply segment_ends turn
      intro passed rest' result same
      rw [← same]
      exact Ends.of_leave (matchTurn_done passed rest' result)
    | some parts =>
      obtain ⟨segment, after⟩ := parts
      obtain ⟨rfl, absent⟩ := cut_eq_some_iff.mp hcut
      have turn : matchTurn (before ++ (segment ++ 47 :: after)) (done ++ left)
          (before.length, some k, done.length, result) =
            segmentTurn (done ++ left) (before.length + segment.length + 1)
              (some (before.length + segment.length)) done.length result segment := by
        simp only [matchTurn, find_at, hcut, Option.map_some, Nat.add_sub_cancel_left, substr_part,
          Turn.guard_some, Option.elim_some]
      rw [segments_more absent]
      apply segment_ends turn
      intro passed rest' result same
      have shorter : after.length < n := by
        rw [← hlen]
        simp
        omega
      have text : before ++ (segment ++ 47 :: after) = before ++ segment ++ [47] ++ after := by simp
      have next : before.length + segment.length + 1 = (before ++ segment ++ [47]).length := by
        simp only [List.length_append, List.length_singleton]
      rw [← same, text, next]
      exact ih after.length shorter (before ++ segment ++ [47]) after passed rest' result rfl

end matching

/-- `match` comes to the parts against the segments of the path. -/
theorem match_ends (path : Text) (parts : List Text) :
    Ends (matchTurn path parts) (0, some 0, 0, []) (matchParts parts (segments path)) := by
  have ends := match_ends_from (k := 0) [] path [] parts []
  simpa using ends

/-! ## The parts of a pattern -/

/-- How a segment is kept. -/
def Segment.part : Segment → Text
  | .param => []
  | .literal text => text

theorem fits_nil (path : List Text) : Fits [] path ↔ path = [] := by
  constructor
  · intro fits
    exact List.length_eq_zero_iff.mp fits.length
  · rintro rfl
    exact ⟨rfl, by simp⟩

theorem fits_cons (s : Segment) (pattern : List Segment) (segment : Text) (path : List Text) :
    Fits (s :: pattern) (segment :: path) ↔
      (∀ text, s = .literal text → segment = text) ∧ Fits pattern path := by
  constructor
  · intro fits
    refine ⟨fits.literal (s, segment) (by simp), by simpa using fits.length, ?_⟩
    intro p mem
    exact fits.literal p (List.mem_cons_of_mem _ mem)
  · rintro ⟨first, fits⟩
    refine ⟨by simpa using fits.length, ?_⟩
    rw [List.zip_cons_cons, List.forall_mem_cons]
    exact ⟨first, fits.literal⟩

/-- The parts of a pattern match the paths that fit it, with the parameters. -/
theorem matchParts_eq_some_iff {pattern : List Segment}
    (texts : ∀ s ∈ pattern, ∀ text, s = .literal text → text ≠ []) (path params : List Text) :
    matchParts (pattern.map Segment.part) path = some params ↔
      Fits pattern path ∧ params = paramsIn pattern path := by
  induction pattern generalizing path params with
  | nil =>
    rw [fits_nil]
    cases path with
    | nil => simp [matchParts, paramsIn, eq_comm]
    | cons segment path => simp [matchParts]
  | cons s pattern ih =>
    obtain ⟨own, others⟩ := List.forall_mem_cons.mp texts
    cases path with
    | nil =>
      refine iff_of_false (by simp [matchParts]) ?_
      rintro ⟨fits, _⟩
      cases fits.length
    | cons segment path =>
      rw [List.map_cons, matchParts, fits_cons]
      cases s with
      | param =>
        rw [Segment.part, if_pos rfl, Option.map_eq_some_iff]
        constructor
        · rintro ⟨rest, found, rfl⟩
          obtain ⟨fits, rfl⟩ := (ih others path rest).mp found
          exact ⟨⟨by simp, fits⟩, rfl⟩
        · rintro ⟨⟨_, fits⟩, rfl⟩
          exact ⟨_, (ih others path _).mpr ⟨fits, rfl⟩, rfl⟩
      | literal l =>
        have some_ : l ≠ [] := own l rfl
        have params_ :
            paramsIn (.literal l :: pattern) (segment :: path) = paramsIn pattern path := by
          simp [paramsIn]
        rw [Segment.part, if_neg some_, params_]
        by_cases same : segment = l
        · rw [if_pos same, ih others]
          simp [same]
        · rw [if_neg same]
          refine iff_of_false (by simp) ?_
          rintro ⟨⟨literal, _⟩, _⟩
          exact same (literal l rfl)

theorem part_segmentOf (text : Text) : (segmentOf text).part = partOf text := by
  unfold segmentOf partOf
  split_ifs
  · rfl
  · rfl
  · rfl

theorem literal_segmentOf {text l : Text} (some_ : text ≠ [])
    (literal : segmentOf text = .literal l) :
    l ≠ [] := by
  unfold segmentOf at literal
  split_ifs at literal
  · cases literal
    simp
  · cases literal
    exact some_

/-- The parts that a pattern should be kept as. -/
def patternParts (pattern : Text) : List Text := (segments pattern).map partOf

/-- With these parts a path is matched as the pattern says. -/
theorem matchParts_pattern (pattern path : Text) (params : List Text) :
    matchParts (patternParts pattern) (segments path) = some params ↔
      Fits (patternSegments pattern) (segments path) ∧
        params = paramsIn (patternSegments pattern) (segments path) := by
  have parts : patternParts pattern = (patternSegments pattern).map Segment.part := by
    rw [patternParts, patternSegments, List.map_map]
    exact List.map_congr_left fun text _ => (part_segmentOf text).symm
  rw [parts]
  apply matchParts_eq_some_iff
  intro s mem l literal
  obtain ⟨text, listed, rfl⟩ := List.mem_map.mp mem
  exact literal_segmentOf (of_decide_eq_true (List.mem_filter.mp listed).2) literal

/-! ## Registering a route -/

/-- Paths match a route as the pattern says, in a loop that ends. -/
def Routes (pattern : Text) (parts : List Text) : Prop :=
  ∀ path, (∃ found, Ends (matchTurn path parts) (0, some 0, 0, []) found) ∧
    ∀ params, Ends (matchTurn path parts) (0, some 0, 0, []) (some params) ↔
      Fits (patternSegments pattern) (segments path) ∧
        params = paramsIn (patternSegments pattern) (segments path)

/-- The loop of `parse_route` ends with such a route. -/
def Registers (pattern : Text) : Prop :=
  ∃ parts, Ends (parseRouteTurn pattern) (1, []) parts ∧ Routes pattern parts

theorem routes_patternParts (pattern : Text) : Routes pattern (patternParts pattern) := by
  intro path
  have ends := match_ends path (patternParts pattern)
  refine ⟨⟨_, ends⟩, ?_⟩
  intro params
  rw [← matchParts_pattern]
  constructor
  · exact fun found => ends.unique found
  · intro found
    rw [found] at ends
    exact ends

/-- A slash that is found once is found again. -/
theorem parse_diverges (before : Text) {rest : Text} (parts : List Text) (mem : 47 ∈ rest) :
    Diverges (parseRouteTurn (before ++ rest)) (before.length, parts) := by
  refine diverges_of_invariant (fun s => ∃ read left, before ++ rest = read ++ left ∧ 47 ∈ left ∧
    s.1 = read.length) ?_ ⟨before, rest, rfl, mem, rfl⟩
  rintro ⟨_, parts⟩ ⟨read, left, path, mem, rfl⟩
  obtain ⟨part, after, rfl, absent⟩ := List.eq_append_cons_of_mem mem
  have slash := cut_append absent after
  have next : read.length + part.length = (read ++ part).length := List.length_append.symm
  have turn : parseRouteTurn (read ++ (part ++ 47 :: after)) (read.length, parts) =
      .again ((read ++ part).length, parts ++ [partOf part]) := by
    rw [← next]
    simp only [parseRouteTurn, find_at, slash, Option.map_some, Nat.add_sub_cancel_left,
      substr_part, Turn.guard_some]
  rw [path]
  exact ⟨_, turn, read ++ part, 47 :: after, by simp, List.mem_cons_self, rfl⟩

/-- Without a slash behind the first byte there are no parts. -/
theorem parse_ends {pattern : Text} (absent : 47 ∉ pattern.tail) :
    Ends (parseRouteTurn pattern) (1, []) [] := by
  apply Ends.of_leave
  have missing : find pattern 47 1 = none := by
    cases pattern with
    | nil => rfl
    | cons b rest =>
      have none_ := find_at [b] rest 47
      have absent_ : 47 ∉ rest := absent
      rw [cut_eq_none_iff.mpr absent_] at none_
      exact none_
  simp only [parseRouteTurn, missing]

/-- A route without parts does not match a path that fits the one segment of a pattern. -/
theorem not_routes_nil {pattern text : Text} (one : segments pattern = [text]) (some_ : text ≠ [])
    (absent : 47 ∉ text) : ¬ Routes pattern [] := by
  intro routes
  obtain ⟨path, path_some, path_absent, fits⟩ : ∃ path : Text, path ≠ [] ∧ 47 ∉ path ∧
      ∀ l, segmentOf text = .literal l → path = l := by
    unfold segmentOf
    split_ifs
    · exact ⟨[97], by simp, by simp, by simp⟩
    · exact ⟨[123, 125], by simp, by simp, by simp⟩
    · exact ⟨text, some_, absent, by simp⟩
  have path_one : segments path = [path] := by
    rw [segments_last path_absent, if_neg path_some]
  have fits_ : Fits (patternSegments pattern) (segments path) := by
    rw [patternSegments, one, path_one, List.map_singleton, fits_cons, fits_nil]
    exact ⟨fits, rfl⟩
  have found := (routes path).2 _ |>.mpr ⟨fits_, rfl⟩
  have missed := found.unique (match_ends path [])
  rw [path_one, matchParts] at missed
  · cases missed
  · simp
  · simp

theorem not_registers {pattern : Text} (some_ : pattern ≠ []) (named : pattern ≠ [47]) :
    ¬ Registers pattern := by
  rintro ⟨parts, ends, routes⟩
  obtain ⟨b, rest, rfl⟩ := List.exists_cons_of_ne_nil some_
  by_cases slash : 47 ∈ rest
  · exact (parse_diverges [b] [] slash).not_ends ends
  · obtain rfl := ends.unique (parse_ends slash)
    by_cases first : b = 47
    · subst first
      have text : rest ≠ [] := by
        rintro rfl
        exact named rfl
      have one : segments ([] ++ 47 :: rest) = [rest] := by
        rw [segments_more List.not_mem_nil, if_pos rfl, segments_last slash, if_neg text]
      exact not_routes_nil one text slash routes
    · have absent : 47 ∉ b :: rest := by
        rw [List.mem_cons, not_or]
        exact ⟨Ne.symm first, slash⟩
      have one : segments (b :: rest) = [b :: rest] := by
        rw [segments_last absent, if_neg some_]
      exact not_routes_nil one some_ absent routes

theorem registers_trivial : Registers [] ∧ Registers [47] := by
  constructor
  · exact ⟨[], parse_ends (by simp), routes_patternParts []⟩
  · exact ⟨[], parse_ends (by simp), routes_patternParts [47]⟩

/-- A route is registered as its pattern says only when the pattern has no segments and
nothing behind its first byte. With the parts of the pattern `match` would be right. -/
theorem registers_iff (pattern : Text) :
    (Registers pattern ↔ pattern = [] ∨ pattern = [47]) ∧
    Routes pattern (patternParts pattern) := by
  refine ⟨?_, routes_patternParts pattern⟩
  constructor
  · intro registers
    by_contra other
    rw [not_or] at other
    exact not_registers other.1 other.2 registers
  · rintro (rfl | rfl)
    · exact registers_trivial.1
    · exact registers_trivial.2

/-- Two segments, and one that its own path does not match. -/
theorem ordinary_patterns_fail :
    Diverges (parseRouteTurn "/api/users") (1, []) ∧ ¬ Registers "/api/users" ∧
    Ends (parseRouteTurn "/portal") (1, []) [] ∧
    loop (matchTurn "/portal" []) 3 (0, some 0, 0, []) = .done none ∧ ¬ Registers "/portal" := by
  refine ⟨?_, ?_, ⟨1, by decide +kernel⟩, by decide +kernel, ?_⟩
  · have slash : (47 : Byte) ∈ lit "api/users" := by decide +kernel
    exact parse_diverges "/" [] slash
  · exact not_registers (by decide +kernel) (by decide +kernel)
  · exact not_registers (by decide +kernel) (by decide +kernel)

end RoutePatterns
