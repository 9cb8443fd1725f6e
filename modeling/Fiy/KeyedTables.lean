import Mathlib.Data.List.AList
import Mathlib.Logic.Function.Basic

/-!
# Keyed tables and mutually inverse indexes

`Table` is the value semantics of a hash map: unique keys are a field of the
representation, and iteration order is never observed. A table whose values are
optional models a map of nullable pointers, where a key may hold a placeholder.

The second half is about a set of records found through two keys. It is stated
for partial functions and knows nothing of tables: two indexes are mirrors when
each one finds exactly the records the other finds, under the records' own keys.
-/

namespace KeyedTables

universe u v w

abbrev Table (κ : Type u) (α : Type v) := AList (fun _ : κ => α)

section tables
variable {κ : Type u} {α : Type v} [DecidableEq κ]

/-- `emplace`: an existing entry is kept and reported. -/
def emplace (t : Table κ α) (k : κ) (a : α) : Bool × Table κ α :=
  if k ∈ t then (false, t) else (true, t.insert k a)

/-- `std::erase_if`. -/
def eraseIf (p : κ → α → Bool) (t : Table κ α) : Table κ α :=
  ⟨t.entries.filter fun e => !p e.1 e.2,
    t.nodupKeys.sublist List.filter_sublist⟩

def eraseAll (ks : List κ) (t : Table κ α) : Table κ α :=
  ks.foldl (fun t k => t.erase k) t

theorem lookup_insert_eq (t : Table κ α) (k k' : κ) (a : α) :
    (t.insert k a).lookup k' = if k' = k then some a else t.lookup k' := by
  by_cases h : k' = k
  · subst h
    simp
  · simp [h]

theorem lookup_erase_eq (t : Table κ α) (k k' : κ) :
    (t.erase k).lookup k' = if k' = k then none else t.lookup k' := by
  by_cases h : k' = k
  · subst h
    simp
  · simp [h]

theorem lookup_eraseIf (p : κ → α → Bool) (t : Table κ α) (k : κ) :
    (eraseIf p t).lookup k = (t.lookup k).filter fun a => !p k a := by
  ext a
  rw [← Option.mem_def, ← Option.mem_def, AList.mem_lookup_iff, Option.mem_def,
    Option.filter_eq_some_iff, ← Option.mem_def, AList.mem_lookup_iff]
  simp [eraseIf, List.mem_filter]

/-- Nothing is erased where no entry passes the test. -/
theorem eraseIf_of_forall {p : κ → α → Bool} {t : Table κ α}
    (kept : ∀ k a, t.lookup k = some a → p k a = false) : eraseIf p t = t := by
  apply AList.ext
  change t.entries.filter _ = t.entries
  rw [List.filter_eq_self]
  rintro ⟨k, a⟩ mem
  have entry : t.lookup k = some a := AList.mem_lookup_iff.mpr mem
  simp [kept k a entry]

theorem lookup_eraseAll (ks : List κ) (t : Table κ α) (k : κ) :
    (eraseAll ks t).lookup k = if k ∈ ks then none else t.lookup k := by
  induction ks generalizing t with
  | nil => simp [eraseAll]
  | cons a ks ih =>
    have step : eraseAll (a :: ks) t = eraseAll ks (t.erase a) := rfl
    rw [step, ih, lookup_erase_eq]
    by_cases hk : k ∈ ks
    · simp [hk]
    · by_cases ha : k = a <;> simp [hk, ha]

/-- A failed `emplace` changes nothing. -/
theorem emplace_of_mem {t : Table κ α} {k : κ} (h : k ∈ t) (a : α) :
    emplace t k a = (false, t) := if_pos h

theorem emplace_of_notMem {t : Table κ α} {k : κ} (h : k ∉ t) (a : α) :
    emplace t k a = (true, t.insert k a) := if_neg h

/-- Taking back the entry just inserted restores the table itself. -/
theorem erase_insert_of_notMem {t : Table κ α} {k : κ} (h : k ∉ t) (a : α) :
    (t.insert k a).erase k = t := by
  apply AList.ext
  have hk : k ∉ t.entries.keys := h
  rw [AList.insert_of_notMem h]
  change List.kerase k (⟨k, a⟩ :: t.entries) = t.entries
  exact List.kerase_cons_eq rfl

theorem lookup_emplace_snd {t : Table κ α} {key other : κ} {a : α} :
    (emplace t key a).2.lookup other =
      (t.lookup other).or (if other = key then some a else none) := by
  by_cases present : key ∈ t
  · rw [emplace_of_mem present]
    by_cases same : other = key
    · subst same
      obtain ⟨kept, hkept⟩ := Option.isSome_iff_exists.mp (AList.lookup_isSome.mpr present)
      simp [hkept]
    · simp [same]
  · rw [emplace_of_notMem present, lookup_insert_eq]
    by_cases same : other = key
    · subst same
      simp [AList.lookup_eq_none.mpr present]
    · simp [same]

/-- Pairs one after the other, by `emplace`. -/
def storeAll (pairs : List (κ × α)) (t : Table κ α) : Table κ α :=
  pairs.foldl (fun t pair => (emplace t pair.1 pair.2).2) t

/-- The first pair of a key counts, behind what was there before. -/
theorem lookup_storeAll (pairs : List (κ × α)) (t : Table κ α) (key : κ) :
    (storeAll pairs t).lookup key =
      (t.lookup key).or ((pairs.find? fun pair => pair.1 = key).map Prod.snd) := by
  induction pairs generalizing t with
  | nil => simp [storeAll]
  | cons pair pairs ih =>
    have step : storeAll (pair :: pairs) t = storeAll pairs (emplace t pair.1 pair.2).2 := rfl
    rw [step, ih, lookup_emplace_snd, Option.or_assoc]
    by_cases same : key = pair.1
    · simp [same]
    · simp [same, Ne.symm same]

/-- With distinct keys a key finds its element. -/
theorem find?_of_distinct {key : α → κ} {l : List α} (distinct : (l.map key).Nodup) {a : α}
    (listed : a ∈ l) : l.find? (fun b => key b = key a) = some a := by
  induction l with
  | nil => cases listed
  | cons first rest ih =>
    rw [List.map_cons, List.nodup_cons] at distinct
    obtain ⟨new, distinct⟩ := distinct
    rcases List.mem_cons.mp listed with rfl | listed
    · exact List.find?_cons_of_pos (decide_eq_true rfl)
    · rw [List.find?_cons_of_neg, ih distinct listed]
      rw [decide_eq_true_eq]
      intro same
      exact new (same ▸ List.mem_map_of_mem listed)

end tables

section nullable
variable {κ : Type u} {ρ : Type v} [DecidableEq κ]

/-- The record a key finds: a missing key and a placeholder both find none. -/
def found (t : Table κ (Option ρ)) (k : κ) : Option ρ := (t.lookup k).join

theorem found_insert (t : Table κ (Option ρ)) (k : κ) (a : Option ρ) :
    found (t.insert k a) = Function.update (found t) k a := by
  funext k'
  rw [found, lookup_insert_eq]
  by_cases h : k' = k
  · subst h
    simp
  · simp [h, found]

theorem found_erase (t : Table κ (Option ρ)) (k : κ) :
    found (t.erase k) = Function.update (found t) k none := by
  funext k'
  rw [found, lookup_erase_eq]
  by_cases h : k' = k
  · subst h
    simp
  · simp [h, found]

theorem found_of_notMem {t : Table κ (Option ρ)} {k : κ} (h : k ∉ t) :
    found t k = none := by
  rw [found, AList.lookup_eq_none.mpr h]
  rfl

/-- A placeholder put at a missing key is invisible. -/
theorem found_insert_placeholder {t : Table κ (Option ρ)} {k : κ} (h : k ∉ t) :
    found (t.insert k none) = found t := by
  rw [found_insert, ← found_of_notMem h, Function.update_eq_self]

end nullable

section mirrors
variable {κ : Type u} {τ : Type v} {ρ : Type w}

/-- Two partial indexes of one set of records: by name and by token. -/
structure Mirror (name : ρ → κ) (token : ρ → τ)
    (byName : κ → Option ρ) (byToken : τ → Option ρ) : Prop where
  named : ∀ d p, byName d = some p → name p = d ∧ byToken (token p) = some p
  tokened : ∀ t p, byToken t = some p → token p = t ∧ byName (name p) = some p

variable {name : ρ → κ} {token : ρ → τ} {f : κ → Option ρ} {g : τ → Option ρ}

theorem mirror_empty : Mirror name token (fun _ => none) (fun _ => none) :=
  ⟨fun _ _ h => (by cases h), fun _ _ h => (by cases h)⟩

/-- The two indexes determine each other. -/
theorem Mirror.found_iff (m : Mirror name token f g) (d : κ) (p : ρ) :
    f d = some p ↔ name p = d ∧ g (token p) = some p := by
  constructor
  · exact m.named d p
  · rintro ⟨rfl, h⟩
    exact (m.tokened _ p h).2

/-- Renaming records that neither index finds changes nothing. -/
theorem Mirror.congr (m : Mirror name token f g) {name' : ρ → κ} {token' : ρ → τ}
    (same : ∀ d p, f d = some p → name' p = name p ∧ token' p = token p) :
    Mirror name' token' f g := by
  constructor
  · intro d p h
    obtain ⟨hn, ht⟩ := same d p h
    exact ⟨hn.trans (m.named d p h).1, ht ▸ (m.named d p h).2⟩
  · intro t p h
    obtain ⟨ht, hf⟩ := m.tokened t p h
    obtain ⟨hn, ht'⟩ := same _ p hf
    exact ⟨ht'.trans ht, hn ▸ hf⟩

variable [DecidableEq κ] [DecidableEq τ]

theorem Mirror.add (m : Mirror name token f g) {p : ρ}
    (hf : f (name p) = none) (hg : g (token p) = none) :
    Mirror name token (Function.update f (name p) (some p))
      (Function.update g (token p) (some p)) := by
  constructor
  · intro d q h
    by_cases hd : d = name p
    · subst hd
      have hpq : p = q := by simpa using h
      subst hpq
      simp
    · rw [Function.update_of_ne hd] at h
      obtain ⟨hn, hq⟩ := m.named d q h
      have ht : token q ≠ token p := by
        intro e
        rw [e, hg] at hq
        cases hq
      exact ⟨hn, by rw [Function.update_of_ne ht]; exact hq⟩
  · intro t q h
    by_cases ht : t = token p
    · subst ht
      have hpq : p = q := by simpa using h
      subst hpq
      simp
    · rw [Function.update_of_ne ht] at h
      obtain ⟨hn, hq⟩ := m.tokened t q h
      have hd : name q ≠ name p := by
        intro e
        rw [e, hf] at hq
        cases hq
      exact ⟨hn, by rw [Function.update_of_ne hd]; exact hq⟩

theorem Mirror.remove (m : Mirror name token f g) {d : κ} {p : ρ} (h : f d = some p) :
    Mirror name token (Function.update f d none) (Function.update g (token p) none) := by
  obtain ⟨hd, hp⟩ := m.named d p h
  constructor
  · intro e q hq
    by_cases he : e = d
    · subst he
      simp at hq
    · rw [Function.update_of_ne he] at hq
      obtain ⟨hn, hg⟩ := m.named e q hq
      have ht : token q ≠ token p := by
        intro same
        rw [same, hp] at hg
        exact he (hn.symm.trans ((Option.some.inj hg) ▸ hd))
      exact ⟨hn, by rw [Function.update_of_ne ht]; exact hg⟩
  · intro t q hq
    by_cases ht : t = token p
    · subst ht
      simp at hq
    · rw [Function.update_of_ne ht] at hq
      obtain ⟨hn, hf⟩ := m.tokened t q hq
      have hne : name q ≠ d := by
        intro same
        rw [same, h] at hf
        exact ht (hn.symm.trans ((Option.some.inj hf) ▸ rfl))
      exact ⟨hn, by rw [Function.update_of_ne hne]; exact hf⟩

omit [DecidableEq κ] [DecidableEq τ] in
/-- Dropping the records that fail a test from both indexes. -/
theorem Mirror.filter (m : Mirror name token f g) (keep : ρ → Bool) :
    Mirror name token (fun d => (f d).filter keep) (fun t => (g t).filter keep) := by
  constructor
  · intro d p h
    obtain ⟨hf, hk⟩ := Option.filter_eq_some_iff.mp h
    obtain ⟨hd, hg⟩ := m.named d p hf
    exact ⟨hd, Option.filter_eq_some_iff.mpr ⟨hg, hk⟩⟩
  · intro t p h
    obtain ⟨hg, hk⟩ := Option.filter_eq_some_iff.mp h
    obtain ⟨ht, hf⟩ := m.tokened t p hg
    exact ⟨ht, Option.filter_eq_some_iff.mpr ⟨hf, hk⟩⟩

omit [DecidableEq κ] in
/-- Clearing one token alone keeps the mirror only when the token found nothing. -/
theorem Mirror.clear_token_iff (m : Mirror name token f g) (t : τ) :
    Mirror name token f (Function.update g t none) ↔ g t = none := by
  constructor
  · intro m'
    cases hg : g t with
    | none => rfl
    | some p =>
      obtain ⟨ht, hf⟩ := m.tokened t p hg
      have lost := (m'.named _ p hf).2
      rw [ht, Function.update_self] at lost
      cases lost
  · intro hg
    rw [← hg, Function.update_eq_self]
    exact m

end mirrors

end KeyedTables
