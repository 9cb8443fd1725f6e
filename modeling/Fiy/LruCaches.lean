import Mathlib.Data.List.Perm.Basic
import Mathlib.Data.List.Nodup
import Fiy.CallRuns
import Fiy.KeyedTables

/-!
# The cache of what was used last

`LRUCache.hpp`: a list whose front was used last, and a hash map from the keys to iterators of
the list. An iterator is the number of its node, and nothing for `end()`. An iterator that points
to no node must not be used.
-/

namespace LruCaches

open CallRuns KeyedTables

universe u v

variable {K : Type u} {V : Type v} [DecidableEq K]

/-! ## The class -/

/-- A node of `m_list`. -/
structure Node (K : Type u) (V : Type v) where
  id : Nat
  key : K
  value : V
  deriving DecidableEq, Repr

abbrev Iter := Option Nat

/-- `LRUCache`. Nodes are numbered when they are made. -/
structure Cache (K : Type u) (V : Type v) where
  hash : Table K Iter
  list : List (Node K V)
  maxSize : Nat
  next : Nat

/-- What is called. -/
inductive Call (K : Type u) (V : Type v)
  | get (key : K)
  | getDefault (key : K) (defaultValue : V)
  | set (key : K) (value : V)
  | drop (key : K)
  | size
  | exists_ (key : K)
  | empty
  deriving DecidableEq, Repr

def Call.IsSet : Call K V → Prop
  | .set _ _ => True
  | _ => False

/-- What comes back. -/
inductive Answer (V : Type v)
  | value (v : V)
  | rangeError
  | count (n : Nat)
  | truth (b : Bool)
  | nothing
  deriving DecidableEq, Repr

/-- The node an iterator points to. -/
def nodeAt (list : List (Node K V)) (it : Iter) : Option (Node K V) :=
  it.bind fun id => list.find? fun node => node.id = id

def begin_ (list : List (Node K V)) : Iter := list.head?.map Node.id

/-- `erase` of a list -/
def eraseAt (list : List (Node K V)) (it : Iter) : Option (List (Node K V)) :=
  (nodeAt list it).map fun node => list.filter fun other => other.id ≠ node.id

/-- `splice` to the front of a list -/
def spliceFront (list : List (Node K V)) (it : Iter) : Option (List (Node K V)) :=
  (nodeAt list it).map fun node => node :: list.filter fun other => other.id ≠ node.id

namespace Cache

/-- The constructor -/
def create (maxSize : Nat) : Cache K V where
  hash := ∅
  list := []
  maxSize
  next := 0

/-- Both `get`, with what they do about a key that is not there. -/
def read (absent : Answer V) (key : K) (c : Cache K V) : Option (Answer V × Cache K V) :=
  match c.hash.lookup key with
  | none => some (absent, c)
  | some it => (spliceFront c.list it).bind fun list =>
    (nodeAt list it).map fun node => (.value node.value, { c with list })

def get (key : K) : Cache K V → Option (Answer V × Cache K V) := read .rangeError key

def getDefault (key : K) (defaultValue : V) : Cache K V → Option (Answer V × Cache K V) :=
  read (.value defaultValue) key

/-- `pop_back`, with the entry of the last node. -/
def evict (c : Cache K V) : Cache K V :=
  match c.list.getLast? with
  | none => c
  | some last => { c with hash := c.hash.erase last.key, list := c.list.dropLast }

/-- `set`. The new node is in the list before it is known whether there is an old one. -/
def set (key : K) (value : V) (c : Cache K V) : Option (Answer V × Cache K V) :=
  let it := c.hash.lookup key
  let c := { c with list := ⟨c.next, key, value⟩ :: c.list, next := c.next + 1 }
  match it with
  | none =>
    let c := if c.list.length > c.maxSize then c.evict else c
    some (.nothing, { c with hash := (emplace c.hash key (begin_ c.list)).2 })
  | some old => (eraseAt c.list old).map fun list =>
    (.nothing, { c with list, hash := c.hash.insert key (begin_ list) })

def drop (key : K) (c : Cache K V) : Option (Answer V × Cache K V) :=
  match c.hash.lookup key with
  | none => some (.nothing, c)
  | some it => (eraseAt c.list it).map fun list =>
    (.nothing, { c with list, hash := c.hash.erase key })

def call : Call K V → Cache K V → Option (Answer V × Cache K V)
  | .get key, c => c.get key
  | .getDefault key defaultValue, c => c.getDefault key defaultValue
  | .set key value, c => c.set key value
  | .drop key, c => c.drop key
  | .size, c => some (.count c.list.length, c)
  | .exists_ key, c => some (.truth (c.hash.lookup key).isSome, c)
  | .empty, c => some (.truth c.list.isEmpty, c)

/-- What the list says. -/
def entries (c : Cache K V) : List (K × V) := c.list.map fun node => (node.key, node.value)

/-- The map has the keys of the list, each with the place of its node, and there are not too
many. -/
structure Consistent (c : Cache K V) : Prop where
  keys : (c.list.map Node.key).Nodup
  ids : (c.list.map Node.id).Nodup
  fresh : ∀ node ∈ c.list, node.id < c.next
  maps : ∀ key it, c.hash.lookup key = some it ↔ ∃ node ∈ c.list, node.key = key ∧ it = some node.id
  small : c.list.length ≤ c.maxSize

end Cache

/-! ## The order of use -/

/-- Values of distinct keys, not more than a bound, the one that was used last in front. -/
structure Recent (K : Type u) (V : Type v) (bound : Nat) where
  entries : List (K × V)
  distinct : (entries.map Prod.fst).Nodup
  bounded : entries.length ≤ bound

namespace Recent
variable {bound : Nat}

def none_ (bound : Nat) : Recent K V bound := ⟨[], List.nodup_nil, Nat.zero_le _⟩

def value (r : Recent K V bound) (key : K) : Option V :=
  (r.entries.find? fun e => e.1 = key).map Prod.snd

def without (r : Recent K V bound) (key : K) : Recent K V bound where
  entries := r.entries.filter fun e => e.1 ≠ key
  distinct := r.distinct.sublist (List.filter_sublist.map _)
  bounded := Nat.le_trans (List.length_filter_le _ _) r.bounded

theorem distinct_front (r : Recent K V bound) (key : K) (value : V) :
    (((key, value) :: (r.without key).entries).map Prod.fst).Nodup := by
  rw [List.map_cons, List.nodup_cons]
  refine ⟨?_, (r.without key).distinct⟩
  intro member
  obtain ⟨e, member, same⟩ := List.mem_map.mp member
  exact of_decide_eq_true (List.mem_filter.mp member).2 same

/-- The key is in front then, and the last one goes when there are too many. -/
def front (r : Recent K V bound) (key : K) (value : V) : Recent K V bound where
  entries := ((key, value) :: (r.without key).entries).take bound
  distinct := (r.distinct_front key value).sublist ((List.take_sublist _ _).map _)
  bounded := List.length_take_le _ _

def read (absent : Answer V) (key : K) (r : Recent K V bound) : Answer V × Recent K V bound :=
  match r.value key with
  | none => (absent, r)
  | some v => (.value v, r.front key v)

def call : Call K V → Recent K V bound → Answer V × Recent K V bound
  | .get key, r => r.read .rangeError key
  | .getDefault key defaultValue, r => r.read (.value defaultValue) key
  | .set key value, r => (.nothing, r.front key value)
  | .drop key, r => (.nothing, r.without key)
  | .size, r => (.count r.entries.length, r)
  | .exists_ key, r => (.truth (r.value key).isSome, r)
  | .empty, r => (.truth r.entries.isEmpty, r)

end Recent

/-- At every point of the calls the answers are those of the reference, the list has its values in
the order of use, and the map is right about the list. -/
def Correct (maxSize : Nat) (ops : List (Call K V)) : Prop :=
  ∀ before, before <+: ops → ∃ c,
    calls Cache.call before (.create maxSize) =
      some ((answers Recent.call before (Recent.none_ maxSize)).1, c) ∧
    c.entries = (answers Recent.call before (Recent.none_ maxSize)).2.entries ∧
    c.Consistent ∧ c.maxSize = maxSize

/-! ## Nodes -/

section nodes
variable {list : List (Node K V)} {node : Node K V}

omit [DecidableEq K] in
theorem nodeAt_id (distinct : (list.map Node.id).Nodup) (member : node ∈ list) :
    nodeAt list (some node.id) = some node := find?_of_distinct distinct member

/-- The other nodes are those with other keys. -/
theorem filter_id (ids : (list.map Node.id).Nodup) (keys : (list.map Node.key).Nodup)
    (member : node ∈ list) :
    (list.filter fun other => other.id ≠ node.id) =
      list.filter fun other => other.key ≠ node.key := by
  refine List.filter_congr fun other there => ?_
  have same : other.id = node.id ↔ other.key = node.key :=
    ⟨fun same => congrArg Node.key (List.inj_on_of_nodup_map ids there member same),
      fun same => congrArg Node.id (List.inj_on_of_nodup_map keys there member same)⟩
  simp only [ne_eq, same]

theorem filter_of_new {key : K} (new : key ∉ list.map Node.key) :
    (list.filter fun node => node.key ≠ key) = list :=
  List.filter_eq_self.mpr fun _ member =>
    decide_eq_true (ne_of_mem_of_not_mem (List.mem_map_of_mem member) new)

omit [DecidableEq K] in
/-- Moving a node to the front loses none. -/
theorem front_perm (ids : (list.map Node.id).Nodup) (member : node ∈ list) :
    (node :: list.filter fun other => other.id ≠ node.id).Perm list := by
  have distinct := List.Nodup.of_map _ ids
  have once : (node :: list.filter fun other => other.id ≠ node.id).Nodup := by
    refine List.nodup_cons.mpr ⟨fun there => ?_, distinct.filter _⟩
    exact of_decide_eq_true (List.mem_filter.mp there).2 rfl
  refine (List.perm_ext_iff_of_nodup once distinct).mpr fun other => ?_
  rw [List.mem_cons, List.mem_filter, decide_eq_true_iff]
  constructor
  · rintro (rfl | ⟨there, -⟩)
    · exact member
    · exact there
  · intro there
    by_cases same : other.id = node.id
    · exact .inl (List.inj_on_of_nodup_map ids there member same)
    · exact .inr ⟨there, same⟩

/-- The last node is the only one that has its key. -/
theorem dropLast_eq_filter (keys : (list.map Node.key).Nodup) (last : list.getLast? = some node) :
    list.dropLast = list.filter fun other => other.key ≠ node.key := by
  obtain ⟨front, rfl⟩ := List.getLast?_eq_some_iff.mp last
  rw [List.map_append, List.map_singleton, List.nodup_append] at keys
  have others : ∀ other ∈ front, decide (other.key ≠ node.key) = true := fun other there =>
    decide_eq_true (keys.2.2 _ (List.mem_map_of_mem there) _ (List.mem_singleton_self _))
  rw [List.dropLast_concat, List.filter_append, List.filter_eq_self.mpr others,
    List.filter_singleton]
  simp

end nodes

/-! ## What the map says -/

namespace Cache.Consistent
variable {c : Cache K V}

/-- A key has its node, or none. -/
theorem lookup_cases (sound : c.Consistent) (key : K) :
    (∃ node ∈ c.list, node.key = key ∧ c.hash.lookup key = some (some node.id)) ∨
      key ∉ c.list.map Node.key ∧ c.hash.lookup key = none := by
  cases found : c.hash.lookup key with
  | some it =>
    obtain ⟨node, member, same, rfl⟩ := (sound.maps key it).mp found
    exact .inl ⟨node, member, same, rfl⟩
  | none =>
    refine .inr ⟨fun member => ?_, rfl⟩
    obtain ⟨node, member, same⟩ := List.mem_map.mp member
    have there := (sound.maps key (some node.id)).mpr ⟨node, member, same, rfl⟩
    exact absurd (found.symm.trans there) nofun

/-- The order of the list is free. -/
theorem reorder (sound : c.Consistent) {list : List (Node K V)} (perm : list.Perm c.list) :
    { c with list }.Consistent where
  keys := (perm.map _).nodup_iff.mpr sound.keys
  ids := (perm.map _).nodup_iff.mpr sound.ids
  fresh node member := sound.fresh node (perm.mem_iff.mp member)
  maps key it := by
    rw [sound.maps]
    exact exists_congr fun node => and_congr_left' perm.mem_iff.symm
  small := perm.length_eq ▸ sound.small

/-- A key goes from the list and from the map. -/
theorem remove (sound : c.Consistent) (key : K) :
    { c with
      hash := c.hash.erase key
      list := c.list.filter fun node => node.key ≠ key }.Consistent where
  keys := sound.keys.sublist (List.filter_sublist.map _)
  ids := sound.ids.sublist (List.filter_sublist.map _)
  fresh node member := sound.fresh node (List.mem_filter.mp member).1
  maps other it := by
    rw [lookup_erase_eq]
    split
    · rename_i same
      refine ⟨nofun, ?_⟩
      rintro ⟨node, member, rfl, -⟩
      exact absurd same (of_decide_eq_true (List.mem_filter.mp member).2)
    · rename_i different
      rw [sound.maps]
      refine exists_congr fun node => ?_
      rw [List.mem_filter, decide_eq_true_iff]
      constructor
      · rintro ⟨member, rfl, place⟩
        exact ⟨⟨member, different⟩, rfl, place⟩
      · rintro ⟨⟨member, -⟩, same, place⟩
        exact ⟨member, same, place⟩
  small := Nat.le_trans (List.length_filter_le _ _) sound.small

/-- A new key comes to the front. -/
theorem add (sound : c.Consistent) {key : K} (new : key ∉ c.list.map Node.key)
    (room : c.list.length < c.maxSize) (value : V) {hash : Table K Iter}
    (looks : ∀ other, hash.lookup other =
      if other = key then some (some c.next) else c.hash.lookup other) :
    { c with hash, list := ⟨c.next, key, value⟩ :: c.list, next := c.next + 1 }.Consistent where
  keys := List.nodup_cons.mpr ⟨new, sound.keys⟩
  ids := by
    refine List.nodup_cons.mpr ⟨fun member => ?_, sound.ids⟩
    obtain ⟨node, member, same⟩ := List.mem_map.mp member
    exact absurd (sound.fresh node member) (same ▸ Nat.lt_irrefl _)
  fresh := List.forall_mem_cons.mpr ⟨Nat.lt_succ_self _, fun node member =>
    Nat.lt_succ_of_lt (sound.fresh node member)⟩
  maps other it := by
    rw [looks, List.exists_mem_cons_iff]
    split
    · rename_i same
      subst same
      constructor
      · intro place
        exact .inl ⟨rfl, (Option.some.inj place).symm⟩
      · rintro (⟨-, rfl⟩ | ⟨node, member, same, -⟩)
        · rfl
        · exact absurd (same ▸ List.mem_map_of_mem member) new
    · rename_i different
      rw [sound.maps]
      exact ⟨.inr, fun either => either.resolve_left fun first => different first.1.symm⟩
  small := room

end Cache.Consistent

/-! ## The calls -/

/-- The cache has what the reference has. -/
structure Shows {bound : Nat} (c : Cache K V) (r : Recent K V bound) : Prop where
  sound : c.Consistent
  size : c.maxSize = bound
  same : c.entries = r.entries

theorem lookup_emplace_new {t : Table K Iter} {key : K} (new : t.lookup key = none) (it : Iter)
    (other : K) :
    (emplace t key it).2.lookup other = if other = key then some it else t.lookup other := by
  rw [emplace_of_notMem (AList.lookup_eq_none.mp new), lookup_insert_eq]

namespace Shows
variable {bound : Nat} {c : Cache K V} {r : Recent K V bound}

theorem value_of_mem (shows : Shows c r) {node : Node K V} (member : node ∈ c.list) :
    r.value node.key = some node.value := by
  have listed : (node.key, node.value) ∈ r.entries := shows.same ▸ List.mem_map_of_mem member
  exact congrArg (Option.map Prod.snd) (find?_of_distinct r.distinct listed)

/-- The map finds a key if and only if it has a value. -/
theorem lookup_cases (shows : Shows c r) (key : K) :
    (∃ node ∈ c.list, node.key = key ∧ c.hash.lookup key = some (some node.id) ∧
      r.value key = some node.value) ∨
      key ∉ c.list.map Node.key ∧ c.hash.lookup key = none ∧ r.value key = none := by
  obtain ⟨node, member, rfl, found⟩ | ⟨new, missing⟩ := shows.sound.lookup_cases key
  · exact .inl ⟨node, member, rfl, found, shows.value_of_mem member⟩
  · refine .inr ⟨new, missing, ?_⟩
    rw [Recent.value, Option.map_eq_none_iff, List.find?_eq_none]
    intro e listed found
    rw [← shows.same] at listed
    obtain ⟨node, member, rfl⟩ := List.mem_map.mp listed
    exact new (List.mem_map.mpr ⟨node, member, of_decide_eq_true found⟩)

theorem entries_without (shows : Shows c r) (key : K) :
    ((c.list.filter fun node => node.key ≠ key).map fun node => (node.key, node.value)) =
      (r.without key).entries := by
  change _ = r.entries.filter fun e => e.1 ≠ key
  rw [← shows.same, Cache.entries, List.filter_map]
  rfl

/-- An entry in front of the others, while there is room. -/
theorem entries_front (shows : Shows c r) (key : K) (value : V)
    (room : (c.list.filter fun node => node.key ≠ key).length < bound) :
    (key, value) :: ((c.list.filter fun node => node.key ≠ key).map fun node =>
      (node.key, node.value)) = (r.front key value).entries := by
  change _ = ((key, value) :: (r.without key).entries).take bound
  rw [shows.entries_without, List.take_of_length_le]
  rw [List.length_cons, ← shows.entries_without, List.length_map]
  exact room

theorem room_of_mem (shows : Shows c r) {node : Node K V} (member : node ∈ c.list) :
    (c.list.filter fun other => other.key ≠ node.key).length < bound := by
  have fewer : (c.list.filter fun other => other.key ≠ node.key).length < c.list.length :=
    List.length_filter_lt_length_iff_exists.mpr ⟨node, member, by simp⟩
  exact Nat.lt_of_lt_of_le fewer (shows.size ▸ shows.sound.small)

/-- Both `get` move what they find to the front. -/
theorem read (shows : Shows c r) (absent : Answer V) (key : K) :
    ∃ c', c.read absent key = some ((r.read absent key).1, c') ∧
      Shows c' (r.read absent key).2 := by
  obtain ⟨node, member, rfl, found, value⟩ | ⟨-, missing, value⟩ := shows.lookup_cases key
  · have splice : spliceFront c.list (some node.id) =
        some (node :: c.list.filter fun other => other.id ≠ node.id) := by
      rw [spliceFront, nodeAt_id shows.sound.ids member]
      rfl
    have sound := shows.sound.reorder (front_perm shows.sound.ids member)
    rw [Cache.read, found, Recent.read, value]
    refine ⟨_, ?_, sound, shows.size, ?_⟩
    · simp only [splice, Option.bind_some, nodeAt_id sound.ids List.mem_cons_self]
      rfl
    · rw [← shows.entries_front _ _ (shows.room_of_mem member),
        ← filter_id shows.sound.ids shows.sound.keys member]
      rfl
  · rw [Cache.read, missing, Recent.read, value]
    exact ⟨c, rfl, shows⟩

/-- What is erased is the node of the key. -/
theorem eraseAt_id (shows : Shows c r) {node : Node K V} (member : node ∈ c.list) :
    eraseAt c.list (some node.id) = some (c.list.filter fun other => other.key ≠ node.key) := by
  rw [eraseAt, nodeAt_id shows.sound.ids member, Option.map_some,
    filter_id shows.sound.ids shows.sound.keys member]

/-- Of two nodes with the key the old one is erased. -/
theorem set_old (shows : Shows c r) {node : Node K V} (member : node ∈ c.list) (value : V) :
    ∃ c', c.set node.key value = some (.nothing, c') ∧ Shows c' (r.front node.key value) := by
  have older := Nat.ne_of_lt (shows.sound.fresh node member)
  have found := (shows.sound.maps node.key (some node.id)).mpr ⟨node, member, rfl, rfl⟩
  have erased : eraseAt (⟨c.next, node.key, value⟩ :: c.list) (some node.id) =
      some (⟨c.next, node.key, value⟩ :: c.list.filter fun other => other.key ≠ node.key) := by
    have skipped : nodeAt (⟨c.next, node.key, value⟩ :: c.list) (some node.id) = some node :=
      (List.find?_cons_of_neg (by simpa using older.symm)).trans
        (nodeAt_id shows.sound.ids member)
    rw [eraseAt, skipped, Option.map_some, List.filter_cons_of_pos (by simpa using older.symm),
      filter_id shows.sound.ids shows.sound.keys member]
  have gone : node.key ∉ (c.list.filter fun other => other.key ≠ node.key).map Node.key := by
    intro there
    obtain ⟨other, there, same⟩ := List.mem_map.mp there
    exact of_decide_eq_true (List.mem_filter.mp there).2 same
  have room := shows.room_of_mem member
  have looks (other : K) : (c.hash.insert node.key (some c.next)).lookup other =
      if other = node.key then some (some c.next) else (c.hash.erase node.key).lookup other := by
    rw [lookup_insert_eq, lookup_erase_eq]
    split_ifs <;> rfl
  refine ⟨_, ?_, (shows.sound.remove node.key).add gone (shows.size ▸ room) value looks,
    shows.size, shows.entries_front _ _ room⟩
  rw [Cache.set, found]
  simp only [erased, Option.map_some]
  rfl

theorem set_roomy (shows : Shows c r) {key : K} (new : key ∉ c.list.map Node.key)
    (missing : c.hash.lookup key = none) (room : c.list.length < c.maxSize) (value : V) :
    ∃ c', c.set key value = some (.nothing, c') ∧ Shows c' (r.front key value) := by
  have others := filter_of_new new
  refine ⟨_, ?_, shows.sound.add new room value (lookup_emplace_new missing _), shows.size, ?_⟩
  · rw [Cache.set, missing]
    simp only [List.length_cons, if_neg (Nat.not_lt.mpr room)]
    rfl
  · rw [← shows.entries_front key value (by rw [others]; exact shows.size ▸ room), others]
    rfl

/-- The last node makes room. -/
theorem set_full (shows : Shows c r) {key : K} (new : key ∉ c.list.map Node.key)
    (missing : c.hash.lookup key = none) {last : Node K V} (ends : c.list.getLast? = some last)
    (full : c.list.length = bound) (value : V) :
    ∃ c', c.set key value = some (.nothing, c') ∧ Shows c' (r.front key value) := by
  have member := List.mem_of_getLast? ends
  have some_ := List.ne_nil_of_mem member
  have rest := dropLast_eq_filter shows.sound.keys ends
  have size := shows.size
  have gone : key ∉ (c.list.filter fun node => node.key ≠ last.key).map Node.key :=
    fun there => new ((List.filter_sublist.map _).subset there)
  have missing' : (c.hash.erase last.key).lookup key = none := by
    rw [lookup_erase_eq, missing, ite_self]
  refine ⟨_, ?_, (shows.sound.remove last.key).add gone
    (size ▸ shows.room_of_mem member) value (lookup_emplace_new missing' _), size, ?_⟩
  · have exceeds : c.list.length + 1 > c.maxSize := by omega
    rw [Cache.set, missing]
    simp only [List.length_cons, if_pos exceeds, Cache.evict,
      List.getLast?_cons_of_ne_nil some_, ends, List.dropLast_cons_of_ne_nil some_, rest]
    rfl
  · have whole : bound = c.list.length - 1 + 1 := by
      have := List.length_pos_of_mem member
      omega
    have cut : (r.front key value).entries =
        ((key, value) :: (r.without key).entries).take bound := rfl
    rw [cut, ← shows.entries_without, filter_of_new new, whole, List.take_succ_cons,
      ← List.map_take, ← List.dropLast_eq_take, rest]
    rfl

theorem set_new (shows : Shows c r) (some_ : bound ≠ 0) {key : K} (new : key ∉ c.list.map Node.key)
    (missing : c.hash.lookup key = none) (value : V) :
    ∃ c', c.set key value = some (.nothing, c') ∧ Shows c' (r.front key value) := by
  have small := shows.sound.small
  have size := shows.size
  rcases Nat.lt_or_ge c.list.length c.maxSize with room | full
  · exact shows.set_roomy new missing room value
  · cases ends : c.list.getLast? with
    | none =>
      rw [List.getLast?_eq_none_iff] at ends
      rw [ends, List.length_nil] at full
      omega
    | some last => exact shows.set_full new missing ends (by omega) value

theorem drop (shows : Shows c r) (key : K) :
    ∃ c', c.drop key = some (.nothing, c') ∧ Shows c' (r.without key) := by
  obtain ⟨node, member, rfl, found, -⟩ | ⟨new, missing, -⟩ := shows.lookup_cases key
  · refine ⟨_, ?_, shows.sound.remove node.key, shows.size, shows.entries_without node.key⟩
    rw [Cache.drop, found]
    simp only [shows.eraseAt_id member, Option.map_some]
  · refine ⟨c, by rw [Cache.drop, missing], shows.sound, shows.size, ?_⟩
    rw [← shows.entries_without, filter_of_new new]
    rfl

theorem call (shows : Shows c r) {e : Call K V} (fits : bound ≠ 0 ∨ ¬ e.IsSet) :
    ∃ c', Cache.call e c = some ((Recent.call e r).1, c') ∧ Shows c' (Recent.call e r).2 := by
  cases e with
  | get key => exact shows.read .rangeError key
  | getDefault key defaultValue => exact shows.read (.value defaultValue) key
  | set key value =>
    have some_ : bound ≠ 0 := fits.resolve_right fun other => other trivial
    obtain ⟨node, member, rfl, -⟩ | ⟨new, missing, -⟩ := shows.lookup_cases key
    · exact shows.set_old member value
    · exact shows.set_new some_ new missing value
  | drop key => exact shows.drop key
  | size =>
    refine ⟨c, ?_, shows⟩
    have length : c.list.length = r.entries.length := by
      rw [← shows.same, Cache.entries, List.length_map]
    simp only [Cache.call, Recent.call, length]
  | exists_ key =>
    refine ⟨c, ?_, shows⟩
    obtain ⟨node, -, -, found, value⟩ | ⟨-, missing, value⟩ := shows.lookup_cases key
    · simp only [Cache.call, Recent.call, found, value, Option.isSome_some]
    · simp only [Cache.call, Recent.call, missing, value, Option.isSome_none]
  | empty =>
    refine ⟨c, ?_, shows⟩
    have empty : c.list.isEmpty = r.entries.isEmpty := by
      rw [← shows.same, Cache.entries, List.isEmpty_map]
    simp only [Cache.call, Recent.call, empty]

end Shows

/-! ## Runs -/

theorem shows_create (maxSize : Nat) :
    Shows (Cache.create maxSize : Cache K V) (Recent.none_ maxSize) where
  sound :=
    { keys := List.nodup_nil
      ids := List.nodup_nil
      fresh := nofun
      maps := fun key it => by
        refine ⟨nofun, ?_⟩
        rintro ⟨node, member, -⟩
        cases member
      small := Nat.zero_le _ }
  size := rfl
  same := rfl

/-- Without room the list is empty, and a new key stays in the map alone. -/
theorem set_without_room {c : Cache K V} (sound : c.Consistent) (room : c.maxSize = 0) (key : K)
    (value : V) : ∃ c', c.set key value = some (.nothing, c') ∧ ¬ c'.Consistent := by
  have empty : c.list = [] := List.length_eq_zero_iff.mp (Nat.le_zero.mp (room ▸ sound.small))
  have missing : c.hash.lookup key = none := by
    obtain ⟨node, member, -⟩ | ⟨-, missing⟩ := sound.lookup_cases key
    · rw [empty] at member
      cases member
    · exact missing
  have missing' : (c.hash.erase key).lookup key = none := by
    rw [lookup_erase_eq, if_pos rfl]
  refine ⟨{ c with
    hash := (emplace (c.hash.erase key) key none).2, list := [], next := c.next + 1 }, ?_, ?_⟩
  · rw [Cache.set, missing]
    simp only [empty, room, Cache.evict]
    rfl
  · intro sound'
    have found := lookup_emplace_new missing' none key
    rw [if_pos rfl] at found
    obtain ⟨node, member, -⟩ := (sound'.maps key none).mp found
    cases member

/-- The cache does what the reference does if and only if it has room, or nothing is set. -/
theorem lru_iff (maxSize : Nat) (ops : List (Call K V)) :
    Correct maxSize ops ↔ maxSize ≠ 0 ∨ ∀ op ∈ ops, ¬ op.IsSet := by
  constructor
  · intro correct
    by_contra wrong
    rw [not_or, not_not, not_forall] at wrong
    obtain ⟨room, op, wrong⟩ := wrong
    rw [Classical.not_imp, not_not] at wrong
    obtain ⟨member, set⟩ := wrong
    obtain ⟨before, after, rfl⟩ := List.append_of_mem member
    obtain ⟨c, run, -, sound, size⟩ := correct before (List.prefix_append _ _)
    obtain ⟨c', run', -, sound', -⟩ := correct (before ++ [op]) ⟨after, by simp⟩
    cases op with
    | set key value =>
      obtain ⟨last, step, broken⟩ := set_without_room sound (size.trans room) key value
      have whole := @calls_concat _ _ _ Cache.call _ _ _ _ _ (.set key value) _ run step
      have same : c' = last :=
        Option.some.inj (congrArg (Option.map Prod.snd) (run'.symm.trans whole))
      exact broken (same ▸ sound')
    | _ => exact set
  · intro fits before front
    have each : ∀ op ∈ before, Simulates (@Shows K V _ maxSize) Cache.call Recent.call op := by
      intro op member s t shows
      exact shows.call (fits.imp_right fun none_ => none_ op (front.subset member))
    obtain ⟨c, run, shows⟩ := Simulates.run each (shows_create maxSize)
    exact ⟨c, run, shows.same, shows.sound, shows.size⟩

/-- A cache without room has a key after all. -/
theorem key_without_node : ¬ Correct 0 [Call.set 1 2, .exists_ 1] := by
  intro correct
  obtain ⟨c, run, -⟩ := correct _ List.prefix_rfl
  have same : ([.nothing, .truth true] : List (Answer Nat)) = [.nothing, .truth false] :=
    Option.some.inj (congrArg (Option.map Prod.fst) run)
  exact absurd same (by decide)

end LruCaches
