import Fiy.CheckedLoops
import Fiy.GitRouter
import Fiy.KeyedTables
import Fiy.TextViews

/-!
# Query strings

The loop over a query string stands in three places, with one difference: what is left of
the view behind a last parameter with a value. `parse_query_string` is a loop of its own,
over positions.
-/

namespace QueryStrings

open ByteStrings KeyedTables TextViews CheckedLoops GitSearch

/-! ## What is meant -/

/-- `strchr` -/
def strchr (path : Text) (b : Byte) : Option Text :=
  (cut b (cstr path)).map fun parts => b :: parts.2

/-- The parts of a query string, each cut at its first equals sign. -/
def splitParams (q : Text) : List (Text × Text) :=
  ((q.splitOn 38).filter fun part => decide (part ≠ [])).map keyValue

/-- The parameters of a path. -/
def paramsOf (path : Text) : List (Text × Text) :=
  match cut 63 (cstr path) with
  | none => []
  | some (_, q) => splitParams q

/-! ## The loop over a view -/

section loop
variable {β : Type}

/-- The view without a separator in front. -/
def strip (q : Text) : Option Text :=
  if q.head? = some 38 ∨ q.head? = some 63 then removePrefix q (some 1) else some q

/-- `=&` -/
def isParamMark (b : Byte) : Bool := b = 61 || b = 38

/-- One turn. A parameter is stored, and the view is moved to the separator behind it: what
is done when there is none is `last`. -/
def queryTurn (last : Text → Option Text) (store : β → Text × Text → β) :
    Text × β → Turn (Text × β) β
  | (q, ret) =>
    if q = [] then .leave ret
    else .guard (strip q) fun q =>
      match findFirst q isParamMark with
      | none => .again ([], store ret (q, []))
      | some eq => .guard (substr q 0 (some eq)) fun key =>
        if q[eq]? = some 61 then
          let stop := find q 38 eq
          .guard (substr q (eq + 1) (stop.map (· - eq - 1))) fun value =>
            .guard (stop.elim (last q) fun stop => removePrefix q (some stop)) fun q =>
              .again (q, store ret (key, value))
        else .guard (removePrefix q (some eq)) fun q => .again (q, store ret (key, []))

/-- The two versions of `query_params`: `remove_prefix(npos)` -/
def paramsTurn (store : β → Text × Text → β) : Text × β → Turn (Text × β) β :=
  queryTurn (fun q => removePrefix q none) store

/-- `repo_api`: the view is emptied. -/
def repoApiTurn (store : β → Text × Text → β) : Text × β → Turn (Text × β) β :=
  queryTurn (fun _ => some []) store

/-- The view when its first byte is left out as a separator. -/
def separated (q : Text) : Text := if q.head? = some 38 ∨ q.head? = some 63 then q.tail else q

theorem strip_eq (q : Text) : strip q = some (separated q) := by
  unfold strip separated
  split
  next head =>
    cases q with
    | nil => simp at head
    | cons b rest => rfl
  next => rfl

variable {last : Text → Option Text} {store : β → Text × Text → β} {q part after : Text} {ret : β}

/-- A parameter without a separator behind it. -/
theorem turn_last (some_ : q ≠ []) (part_ : separated q = part) (absent : 38 ∉ part) :
    queryTurn last store (q, ret) =
      if 61 ∈ part then .guard (last part) fun q => .again (q, store ret (keyValue part))
      else .again ([], store ret (keyValue part)) := by
  simp only [queryTurn, if_neg some_, strip_eq, Turn.guard_some, part_]
  cases hcut : cut 61 part with
  | none =>
    have equals := cut_eq_none_iff.mp hcut
    have missing : findFirst part isParamMark = none := by
      apply findFirst_eq_none
      intro b mem
      simp [isParamMark, ne_of_mem_of_not_mem mem equals, ne_of_mem_of_not_mem mem absent]
    simp only [missing, if_neg equals, keyValue, hcut, Option.getD_none]
  | some parts =>
    obtain ⟨key, value⟩ := parts
    obtain ⟨rfl, equals⟩ := cut_eq_some_iff.mp hcut
    have found : findFirst (key ++ 61 :: value) isParamMark = some key.length := by
      refine findFirst_append ?_ (by decide) value
      intro b mem
      simp [isParamMark, ne_of_mem_of_not_mem mem equals,
        ne_of_mem_of_not_mem (List.mem_append_left _ mem) absent]
    have stop : find (key ++ 61 :: value) 38 key.length = none := by
      rw [find_at, cut_eq_none_iff.mpr fun mem => absent (List.mem_append_right _ mem)]
      rfl
    have back : substr (key ++ 61 :: value) (key.length + 1) none = some value := by
      have rest := substr_rest (key ++ [61]) value
      simpa using rest
    simp [found, stop, back, keyValue, hcut]

/-- A parameter with a separator behind it. -/
theorem turn_more (some_ : q ≠ []) (part_ : separated q = part ++ 38 :: after)
    (absent : 38 ∉ part) :
    queryTurn last store (q, ret) = .again (38 :: after, store ret (keyValue part)) := by
  simp only [queryTurn, if_neg some_, strip_eq, Turn.guard_some, part_]
  cases hcut : cut 61 part with
  | none =>
    have equals := cut_eq_none_iff.mp hcut
    have found : findFirst (part ++ 38 :: after) isParamMark = some part.length := by
      refine findFirst_append ?_ (by decide) after
      intro b mem
      simp [isParamMark, ne_of_mem_of_not_mem mem equals, ne_of_mem_of_not_mem mem absent]
    simp [found, keyValue, hcut]
  | some parts =>
    obtain ⟨key, value⟩ := parts
    obtain ⟨rfl, equals⟩ := cut_eq_some_iff.mp hcut
    have in_key : (38 : Byte) ∉ key := fun mem => absent (List.mem_append_left _ mem)
    have in_value : (38 : Byte) ∉ 61 :: value := fun mem => absent (List.mem_append_right _ mem)
    have found : findFirst (key ++ 61 :: (value ++ 38 :: after)) isParamMark =
        some key.length := by
      refine findFirst_append ?_ (by decide) _
      intro b mem
      simp [isParamMark, ne_of_mem_of_not_mem mem equals, ne_of_mem_of_not_mem mem in_key]
    have stop : find (key ++ 61 :: (value ++ 38 :: after)) 38 key.length =
        some (key.length + (value.length + 1)) := by
      have cut_rest : cut 38 (61 :: (value ++ 38 :: after)) = some (61 :: value, after) :=
        cut_append in_value after
      rw [find_at, cut_rest]
      rfl
    have back : substr (key ++ 61 :: (value ++ 38 :: after)) (key.length + 1)
        (some value.length) = some value := by
      have rest := substr_part (key ++ [61]) value (38 :: after)
      simpa using rest
    have moved : removePrefix (key ++ 61 :: (value ++ 38 :: after))
        (some (key.length + (value.length + 1))) = some (38 :: after) := by
      have rest := removePrefix_front (key ++ 61 :: value) (38 :: after)
      simpa using rest
    simp [found, stop, back, moved, keyValue, hcut]

theorem paramTexts_eq (some_ : q ≠ []) : paramTexts q = (separated q).splitOn 38 := by
  rw [paramTexts, if_neg some_, separated]

theorem paramTexts_last (some_ : q ≠ []) (absent : 38 ∉ separated q) :
    paramTexts q = [separated q] := by
  rw [paramTexts_eq some_, List.splitOn_eq_singleton absent]

theorem paramTexts_separator (q : Text) : paramTexts (38 :: q) = q.splitOn 38 := by
  rw [paramTexts_eq (List.cons_ne_nil 38 q)]
  rfl

theorem paramTexts_more (some_ : q ≠ []) (part_ : separated q = part ++ 38 :: after)
    (absent : 38 ∉ part) : paramTexts q = part :: paramTexts (38 :: after) := by
  rw [paramTexts_eq some_, part_, List.splitOn_append_cons_self, List.splitOn_eq_singleton absent,
    paramTexts_separator]
  rfl

/-- The last parameter of a query string. -/
def lastParam (q : Text) : Text := (paramTexts q).getLastD []

theorem lastParam_more (some_ : q ≠ []) (part_ : separated q = part ++ 38 :: after)
    (absent : 38 ∉ part) : lastParam q = lastParam (38 :: after) := by
  have rest : paramTexts (38 :: after) ≠ [] := by
    rw [paramTexts_separator]
    exact List.splitOn_ne_nil 38 after
  rw [lastParam, lastParam, paramTexts_more some_ part_ absent]
  obtain ⟨first, parts, hparts⟩ := List.exists_cons_of_ne_nil rest
  rw [hparts]
  rfl

/-- Every parameter in turn: from a view, the next one is behind the next separator. -/
theorem query_induction {motive : Text → Prop} (nil : motive [])
    (last : ∀ q, q ≠ [] → 38 ∉ separated q → motive q)
    (more : ∀ q part after, q ≠ [] → separated q = part ++ 38 :: after → 38 ∉ part →
      motive (38 :: after) → motive q) (q : Text) : motive q := by
  induction hlen : (separated q).length using Nat.strongRecOn generalizing q with
  | ind n ih =>
    by_cases empty : q = []
    · exact empty ▸ nil
    · cases hcut : cut 38 (separated q) with
      | none => exact last q empty (cut_eq_none_iff.mp hcut)
      | some parts =>
        obtain ⟨part, after⟩ := parts
        obtain ⟨part_, absent⟩ := cut_eq_some_iff.mp hcut
        refine more q part after empty part_ absent (ih after.length ?_ (38 :: after) rfl)
        rw [← hlen, part_]
        simp
        omega

/-- The loop stores every parameter, if the last one can be left. -/
theorem query_ends (q : Text) (ret : β) (fits : 61 ∈ lastParam q → last (lastParam q) = some []) :
    Ends (queryTurn last store) (q, ret)
      ((paramTexts q).foldl (fun ret part => store ret (keyValue part)) ret) := by
  induction q using query_induction generalizing ret with
  | nil => exact Ends.of_leave rfl
  | last q some_ absent =>
    have texts := paramTexts_last some_ absent
    rw [lastParam, texts] at fits
    have turn : queryTurn last store (q, ret) =
        .again ([], store ret (keyValue (separated q))) := by
      rw [turn_last some_ rfl absent]
      split
      next mem =>
        have left : last (separated q) = some [] := fits mem
        rw [left]
        rfl
      next => rfl
    rw [texts, ends_of_again turn]
    exact Ends.of_leave rfl
  | more q part after some_ part_ absent ih =>
    rw [lastParam_more some_ part_ absent] at fits
    rw [ends_of_again (turn_more some_ part_ absent), paramTexts_more some_ part_ absent]
    exact ih _ fits

theorem query_faults (q : Text) (ret : β) (mem : 61 ∈ lastParam q)
    (undefined : ∀ q, last q = none) :
    Faults (queryTurn last store) (q, ret) := by
  induction q using query_induction generalizing ret with
  | nil => simp [lastParam, paramTexts] at mem
  | last q some_ absent =>
    rw [lastParam, paramTexts_last some_ absent] at mem
    have mem_ : 61 ∈ separated q := mem
    apply Faults.of_fault
    rw [turn_last some_ rfl absent, if_pos mem_, undefined]
    rfl
  | more q part after some_ part_ absent ih =>
    rw [lastParam_more some_ part_ absent] at mem
    rw [faults_of_again (turn_more some_ part_ absent)]
    exact ih _ mem

end loop

/-! ## The versions of `query_params` -/

/-- The view that is read: without a question mark it is empty. -/
def queryView (path : Text) : Text := (strchr path 63).getD []

/-- `emplace_back` -/
def push (ret : List (Text × Text)) (kv : Text × Text) : List (Text × Text) := ret ++ [kv]

/-- `emplace` -/
def put (ret : Table Text Text) (kv : Text × Text) : Table Text Text := (emplace ret kv.1 kv.2).2

/-- Both versions come to the parameters of the path, and the one with a list to the same
as the loop of `repo_api`. -/
structure ReadsQuery (path : Text) : Prop where
  vector : Ends (paramsTurn push) (queryView path, []) (paramsOf path)
  map : Ends (paramsTurn put) (queryView path, ∅) (storeAll (paramsOf path) ∅)
  repoApi : ∀ params, Ends (paramsTurn push) (queryView path, []) params ↔
    Ends (repoApiTurn push) (queryView path, []) params

/-- Behind a question mark no part is empty, and the last one has no value. -/
def PlainQuery (path : Text) : Prop :=
  ∀ before q, cut 63 (cstr path) = some (before, q) →
    (∀ part ∈ q.splitOn 38, part ≠ []) ∧ 61 ∉ (q.splitOn 38).getLastD []

theorem foldl_push (parts : List Text) (ret : List (Text × Text)) :
    parts.foldl (fun ret part => push ret (keyValue part)) ret = ret ++ parts.map keyValue := by
  induction parts generalizing ret with
  | nil => simp
  | cons part parts ih =>
    rw [List.foldl_cons, ih, push, List.append_assoc]
    rfl

theorem foldl_put (parts : List Text) (ret : Table Text Text) :
    parts.foldl (fun ret part => put ret (keyValue part)) ret =
      storeAll (parts.map keyValue) ret := by
  rw [storeAll, List.foldl_map]
  rfl

/-- The loop of `repo_api` ends on every text, with all parameters. -/
theorem repoApi_ends (q : Text) :
    Ends (repoApiTurn push) (q, []) ((paramTexts q).map keyValue) := by
  have ends : Ends (repoApiTurn push) (q, []) _ := query_ends q [] fun _ => rfl
  rwa [foldl_push, List.nil_append] at ends

theorem vector_ends {q : Text} (plain : 61 ∉ lastParam q) :
    Ends (paramsTurn push) (q, []) ((paramTexts q).map keyValue) := by
  have ends : Ends (paramsTurn push) (q, []) _ := query_ends q [] fun mem => absurd mem plain
  rwa [foldl_push, List.nil_append] at ends

theorem map_ends {q : Text} (plain : 61 ∉ lastParam q) :
    Ends (paramsTurn put) (q, ∅) (storeAll ((paramTexts q).map keyValue) ∅) := by
  have ends : Ends (paramsTurn put) (q, ∅) _ := query_ends q ∅ fun mem => absurd mem plain
  rwa [foldl_put] at ends

theorem paramTexts_question (q : Text) : paramTexts (63 :: q) = q.splitOn 38 := by
  rw [paramTexts_eq (List.cons_ne_nil 63 q)]
  rfl

theorem plainQuery_iff (path : Text) : PlainQuery path ↔
    (∀ part ∈ paramTexts (queryView path), part ≠ []) ∧ 61 ∉ lastParam (queryView path) := by
  unfold PlainQuery queryView strchr lastParam
  cases cut 63 (cstr path) with
  | none => simp [paramTexts]
  | some parts =>
    obtain ⟨before, q⟩ := parts
    simp [paramTexts_question]

/-- The parameters of a path are those that are not empty. -/
theorem paramsOf_eq (path : Text) : paramsOf path =
    ((paramTexts (queryView path)).filter fun part => decide (part ≠ [])).map keyValue := by
  unfold paramsOf queryView strchr
  cases cut 63 (cstr path) with
  | none => rfl
  | some parts => simp only [Option.map_some, Option.getD_some, paramTexts_question, splitParams]

theorem plain_of_readsQuery {path : Text} (reads : ReadsQuery path) : PlainQuery path := by
  rw [plainQuery_iff]
  have unset : 61 ∉ lastParam (queryView path) := fun mem =>
    reads.vector.not_faults (query_faults _ _ mem fun _ => rfl)
  have same := reads.vector.unique (vector_ends unset)
  rw [paramsOf_eq] at same
  have lengths := congrArg List.length same
  rw [List.length_map, List.length_map, List.length_filter_eq_length_iff] at lengths
  exact ⟨fun part mem => of_decide_eq_true (lengths part mem), unset⟩

theorem readsQuery_of_plain {path : Text} (plain : PlainQuery path) : ReadsQuery path := by
  obtain ⟨full, unset⟩ := (plainQuery_iff path).mp plain
  have all : paramsOf path = (paramTexts (queryView path)).map keyValue := by
    rw [paramsOf_eq, List.filter_eq_self.mpr fun part mem => decide_eq_true (full part mem)]
  constructor
  · rw [all]
    exact vector_ends unset
  · rw [all]
    exact map_ends unset
  · intro params
    constructor
    · intro ends
      rw [ends.unique (vector_ends unset)]
      exact repoApi_ends _
    · intro ends
      rw [ends.unique (repoApi_ends _)]
      exact vector_ends unset

/-- `query_params` reads a path as it should exactly when no part of the query string is
empty and the last one has no equals sign. -/
theorem readsQuery_iff (path : Text) : ReadsQuery path ↔ PlainQuery path :=
  ⟨plain_of_readsQuery, readsQuery_of_plain⟩

/-- One parameter with a value, and an empty part in the middle. -/
theorem ordinary_queries_misread :
    loop (paramsTurn push) 1 (queryView "/likes?limit=5", []) = .fault ∧
    loop (repoApiTurn push) 2 (queryView "/likes?limit=5", []) = .done [("limit", "5")] ∧
    loop (paramsTurn push) 4 (queryView "/likes?a&&b", []) =
      .done [("a", []), ([], []), ("b", [])] ∧
    ¬ ReadsQuery "/likes?limit=5" ∧ ¬ ReadsQuery "/likes?a&&b" := by
  refine ⟨by decide +kernel, by decide +kernel, by decide +kernel, ?_, ?_⟩
  · intro reads
    have plain := plain_of_readsQuery reads "/likes" "limit=5" (by decide +kernel)
    exact absurd plain.2 (by decide +kernel)
  · intro reads
    have plain := plain_of_readsQuery reads "/likes" "a&&b" (by decide +kernel)
    exact absurd (plain.1 [] (by decide +kernel)) (by decide)

/-- What the API reads of a path is what the loop comes to. -/
theorem queryParams_eq_some_iff {path : Text} (text : 0 ∉ path) (params : List (Text × Text)) :
    GitRouter.queryParams path = some params ↔
      Ends (paramsTurn push) (queryView path, []) params := by
  have whole : cstr path = path := cstr_eq_self_iff.mpr text
  simp only [GitRouter.queryParams, queryView, strchr, whole]
  cases cut 63 path with
  | none =>
    have ends : Ends (paramsTurn push) (([] : Text), []) [] := Ends.of_leave rfl
    constructor
    · rintro ⟨⟩
      exact ends
    · intro other
      rw [other.unique ends]
  | some parts =>
    obtain ⟨before, q⟩ := parts
    simp only [Option.map_some, Option.getD_some, ← paramTexts_question]
    by_cases mem : 61 ∈ lastParam (63 :: q)
    · rw [lastParam] at mem
      rw [if_pos mem]
      constructor
      · rintro ⟨⟩
      · intro ends
        exact absurd (query_faults (63 :: q) [] mem fun _ => rfl) ends.not_faults
    · have ends := vector_ends mem
      rw [lastParam] at mem
      rw [if_neg mem, Option.some.injEq]
      constructor
      · rintro rfl
        exact ends
      · exact fun other => ends.unique other

/-- The search that a path asks for is what the loop of `repo_api` comes to. -/
theorem searchOf_ends (domain path : Text) :
    Ends (repoApiTurn (applyParam domain))
      (if path.head? = some 47 then path.tail else path, {}) (searchOf domain path) :=
  query_ends _ _ fun _ => rfl

/-! ## The loop over positions -/

/-- One turn of `parse_query_string`. A length below zero is one that is not there. -/
def queryStringTurn (path : Text) :
    Option Nat × Table Text Text → Turn (Option Nat × Table Text Text) (Table Text Text)
  | (none, ret) => .leave ret
  | (some start, ret) => match find path 61 start, find path 38 start with
    | none, none => .guard (substr path start none) fun key => .leave (put ret (key, []))
    | none, some stop => .guard (substr path start (some (stop - start))) fun key =>
        .again (some stop, put ret (key, []))
    | some eq, none => .guard (substr path start (some (eq - start))) fun key =>
        .guard (substr path (eq + 1) none) fun value => .leave (put ret (key, value))
    | some eq, some stop => .guard (substr path start (some (eq - start))) fun key =>
        .guard (substr path (eq + 1) (if eq < stop then some (stop - eq - 1) else none)) fun value =>
          .again (some stop, put ret (key, value))

/-- The map of a path, from all parts behind its first question mark. -/
def queryMap (path : Text) : Table Text Text :=
  match cut 63 path with
  | none => ∅
  | some (_, q) => storeAll ((q.splitOn 38).map keyValue) ∅

/-- The loop comes to the map of the path, and no key has a separator. -/
def SplitsQuery (path : Text) : Prop :=
  ∃ ret, Ends (queryStringTurn path) (find path 63 0, ∅) ret ∧
    (∀ key, ret.lookup key = (queryMap path).lookup key) ∧ ∀ key ∈ ret, 63 ∉ key ∧ 38 ∉ key

section positions
variable (before : Text) {rest : Text} (ret : Table Text Text)

/-- Without a separator what is left is one parameter, with the question mark. -/
theorem queryStringTurn_last (absent : 38 ∉ rest) :
    queryStringTurn (before ++ rest) (some before.length, ret) =
      .leave (put ret (keyValue rest)) := by
  simp only [queryStringTurn, find_at, cut_eq_none_iff.mpr absent]
  cases hcut : cut 61 rest with
  | none => simp [keyValue, hcut]
  | some parts =>
    obtain ⟨key, value⟩ := parts
    obtain ⟨rfl, _⟩ := cut_eq_some_iff.mp hcut
    have back : substr (before ++ (key ++ 61 :: value)) (before.length + key.length + 1) none =
        some value := by
      have rest := substr_rest (before ++ key ++ [61]) value
      simpa [Nat.add_assoc] using rest
    simp [keyValue, hcut, back]

/-- With a separator the next turn begins there. -/
theorem queryStringTurn_again (mem : 38 ∈ rest) :
    ∃ before' rest' ret', before ++ rest = before' ++ rest' ∧ 38 ∈ rest' ∧
      queryStringTurn (before ++ rest) (some before.length, ret) =
        .again (some before'.length, ret') := by
  obtain ⟨part, after, rfl, absent⟩ := List.eq_append_cons_of_mem mem
  have separator := cut_append absent after
  have path : before ++ (part ++ 38 :: after) = before ++ part ++ 38 :: after := by simp
  have here : before.length + part.length = (before ++ part).length := by simp
  refine ⟨before ++ part, 38 :: after, ?_⟩
  cases equals : cut 61 (part ++ 38 :: after) with
  | none =>
    refine ⟨put ret (part, []), path, List.mem_cons_self, ?_⟩
    simp [queryStringTurn, find_at, separator, equals]
  | some parts =>
    obtain ⟨key, value⟩ := parts
    obtain ⟨same, _⟩ := cut_eq_some_iff.mp equals
    have key_ : substr (before ++ (part ++ 38 :: after)) before.length (some key.length) =
        some key := by
      rw [same]
      exact substr_part before key _
    have value_ : ∀ length, ∃ value', substr (before ++ (part ++ 38 :: after))
        (before.length + key.length + 1) length = some value' := by
      intro length
      have rest := substr_at (before ++ key ++ [61]) value length
      rw [same]
      exact ⟨_, by simpa [Nat.add_assoc] using rest⟩
    obtain ⟨value', value_⟩ := value_ (if before.length + key.length < before.length + part.length
      then some (before.length + part.length - (before.length + key.length) - 1) else none)
    refine ⟨put ret (key, value'), path, List.mem_cons_self, ?_⟩
    simp only [queryStringTurn, find_at, separator, equals, Option.map_some, Nat.add_sub_cancel_left,
      key_, value_, Turn.guard_some]
    rw [here]

theorem queryString_diverges (mem : 38 ∈ rest) :
    Diverges (queryStringTurn (before ++ rest)) (some before.length, ret) := by
  refine diverges_of_invariant (fun s => ∃ read left, before ++ rest = read ++ left ∧ 38 ∈ left ∧
    s.1 = some read.length) ?_ ⟨before, rest, rfl, mem, rfl⟩
  rintro ⟨_, ret⟩ ⟨read, left, path, mem, rfl⟩
  obtain ⟨read', left', ret', path', mem', turn⟩ := queryStringTurn_again read ret mem
  rw [path]
  exact ⟨_, turn, read', left', path', mem', rfl⟩

end positions

theorem splitsQuery_of_absent {path : Text} (absent : 63 ∉ path) : SplitsQuery path := by
  have none_ := cut_eq_none_iff.mpr absent
  rw [SplitsQuery, find_start, none_]
  refine ⟨∅, Ends.of_leave rfl, ?_, ?_⟩
  · intro key
    rw [queryMap, none_]
  · intro key mem
    exact absurd mem (AList.notMem_empty key)

theorem question_mem_keyValue (q : Text) : 63 ∈ (keyValue (63 :: q)).1 := by
  cases equals : cut 61 (63 :: q) with
  | none => simp [keyValue, equals]
  | some parts =>
    obtain ⟨key, value⟩ := parts
    obtain ⟨same, _⟩ := cut_eq_some_iff.mp equals
    cases key with
    | nil => simp at same
    | cons b key =>
      rw [List.cons_append, List.cons.injEq] at same
      simp [keyValue, equals, ← same.1]

theorem not_splitsQuery_of_mem {path : Text} (mem : 63 ∈ path) : ¬ SplitsQuery path := by
  rw [SplitsQuery, find_start]
  cases hcut : cut 63 path with
  | none => exact absurd mem (cut_eq_none_iff.mp hcut)
  | some parts =>
    obtain ⟨before, q⟩ := parts
    obtain ⟨rfl, _⟩ := cut_eq_some_iff.mp hcut
    rintro ⟨ret, ends, _, keys⟩
    by_cases separator : 38 ∈ 63 :: q
    · exact (queryString_diverges before ∅ separator).not_ends ends
    · have ret_ := ends.unique (Ends.of_leave (queryStringTurn_last before ∅ separator))
      have stored : (keyValue (63 :: q)).1 ∈ ret := by
        rw [ret_, ← AList.lookup_isSome, put, lookup_emplace_snd, if_pos rfl]
        simp
      exact (keys _ stored).1 (question_mem_keyValue q)

/-- `parse_query_string` does what it should only for a path without parameters: with two
of them it runs forever, and otherwise the question mark is part of the key. -/
theorem splitsQuery_iff (path : Text) : SplitsQuery path ↔ 63 ∉ path :=
  ⟨fun splits mem => not_splitsQuery_of_mem mem splits, splitsQuery_of_absent⟩

/-- Two parameters, and one. -/
theorem query_string_misread :
    Diverges (queryStringTurn "/?a=1&b=2") (find (lit "/?a=1&b=2") 63 0, ∅) ∧
    ¬ SplitsQuery "/?a=1&b=2" ∧
    Ends (queryStringTurn "/?a=1") (find (lit "/?a=1") 63 0, ∅) (put ∅ ("?a", "1")) ∧
    ¬ SplitsQuery "/?a=1" := by
  refine ⟨?_, ?_, ?_, ?_⟩
  · have two : (38 : Byte) ∈ lit "?a=1&b=2" := by decide +kernel
    exact queryString_diverges "/" ∅ two
  · exact not_splitsQuery_of_mem (by decide +kernel)
  · have one : (38 : Byte) ∉ lit "?a=1" := by decide +kernel
    exact Ends.of_leave (queryStringTurn_last "/" ∅ one)
  · exact not_splitsQuery_of_mem (by decide +kernel)

end QueryStrings
