import Mathlib
import Fiy.CardRoundTrip
import Fiy.ContentLines
import Fiy.EncodedTexts

/-!
# Cards on the page

The page of the contacts mod has a parser and a writer of its own for cards. The parameters of a
property are the entries of an object there, in the order that such entries have, with nothing
but strings as values.
-/

namespace FrontendCards

open ByteStrings
open ContactCards (CardProp)
open ContentLines EncodedTexts CardTexts CardRoundTrip

/-- A string of the page, which has no lone halves of characters. -/
abbrev Str := List Char

/-- `\s`, which `trim` removes at both ends -/
def isSpace (c : Char) : Bool :=
  let n := c.toNat
  (9 ≤ n && n ≤ 13) || n = 0x20 || n = 0xA0 || n = 0x1680 || (0x2000 ≤ n && n ≤ 0x200A) ||
    n = 0x2028 || n = 0x2029 || n = 0x202F || n = 0x205F || n = 0x3000 || n = 0xFEFF

def trim (s : Str) : Str := (s.dropWhile isSpace).rdropWhile isSpace

def marks : Marks Char where
  cr := '\r'
  lf := '\n'
  blank := isSpace
  distinct := by decide
  crBlank := by decide
  lfBlank := by decide

/-! ## Objects -/

/-- `Object.entries` -/
abbrev Entries := List (Str × Str)

/-- A key that is an array index. -/
def arrayIndex (k : Str) : Option Nat :=
  if k ≠ [] ∧ k.all Char.isDigit ∧ (k.head? = some '0' → k = ['0']) then
    let n := k.foldl (fun n c => 10 * n + (c.toNat - 48)) 0
    if n < 4294967295 then some n else none
  else none

/-- The entry stands before those of this index and before the other keys. -/
def upTo (n : Nat) (e : Str × Str) : Bool := (arrayIndex e.1).any (· ≤ n)

def proto : Str := "__proto__".toList

/-- `params[k] = v`. A prototype that is no object is ignored; indices come first. -/
def setParam (entries : Entries) (k v : Str) : Entries :=
  if k = proto then entries
  else if entries.any fun e => e.1 = k then
    entries.map fun e => if e.1 = k then (k, v) else e
  else match arrayIndex k with
    | none => entries ++ [(k, v)]
    | some n => entries.takeWhile (upTo n) ++ (k, v) :: entries.dropWhile (upTo n)

/-! ## Properties -/

structure VCProperty where
  name : Str
  params : Entries := []
  value : Str := []
  deriving DecidableEq, Repr

/-- One parameter of a line. -/
def addParam (entries : Entries) (p : Str) : Entries :=
  match p.splitOn '=' with
  | k :: v :: _ => if v ≠ [] then setParam entries k v else entries
  | _ => entries

def entryText (e : Str × Str) : Str := e.1 ++ '=' :: e.2

namespace VCProperty

/-- `paramsString`, where all values are strings -/
def paramsString (entries : Entries) : Str :=
  List.intercalate [';'] ((entries.map entryText).filter (· ≠ []))

def toLine (p : VCProperty) : Str :=
  let params := paramsString p.params
  p.name ++ (if params ≠ [] then ';' :: params else []) ++ ':' :: p.value

/-- `fromLine`. Without a colon the last character is left out of the name, and all of the line is
the value. -/
def fromLine (line : Str) : Option VCProperty :=
  let (field, value) := (cut ':' line).getD (line.dropLast, line)
  match (field.splitOn ';').map trim with
  | [] => none
  | key :: paramStrs =>
    if key = "BEGIN".toList ∨ key = "END".toList then none
    else if key = "VCARD".toList then none
    else some ⟨key, paramStrs.foldl addParam [], value⟩

end VCProperty

open VCProperty

/-! ## Cards -/

structure VC where
  properties : List VCProperty
  deriving DecidableEq, Repr

namespace VC

def parseCard (vc : Str) : Option VC :=
  let vc := trim vc
  if "BEGIN:VCARD".toList <+: vc then some ⟨(split marks (unfold marks vc)).filterMap fromLine⟩
  else none

def endToken : Str := "END:VCARD".toList

/-- `split` by a separator, where some characters of the last one may still be there. -/
def splitText (sep : Str) : Nat → Str → List Str
  | _, [] => [[]]
  | skip + 1, _ :: rest => splitText sep skip rest
  | 0, c :: rest =>
    if sep <+: c :: rest then [] :: splitText sep (sep.length - 1) rest
    else (splitText sep 0 rest).modifyHead (c :: ·)

def parseCards (vcf : Str) : List VC :=
  (splitText endToken 0 vcf).dropLast.filterMap fun s => parseCard (trim s)

def isVersion (p : VCProperty) : Bool := p.name = "VERSION".toList

/-- `vCardString`: the version goes to the front, and leaves an empty line. -/
def vCardString (c : VC) : Str :=
  let version := ((c.properties.find? isVersion).map toLine).getD "VERSION:4.0".toList
  "BEGIN:VCARD\r\n".toList ++ (version ++ ("\r\n".toList ++
    (List.intercalate "\r\n".toList
      (c.properties.map fun p => if isVersion p then [] else p.toLine) ++
    "\r\nEND:VCARD".toList)))

end VC

example : (VC.parseCard "BEGIN:VCARD\nN;1=a;A=b=c;A=d;e;0=f:x\n y\nVERSION:3\nEND:VCARD".toList).map
    VC.vCardString =
      some "BEGIN:VCARD\r\nVERSION:3\r\nN;0=f;1=a;A=d:xy\r\n\r\nEND:VCARD".toList := by
  decide +kernel

/-! ## Parameters that stay -/

/-- An index stands behind smaller ones only, and any other key may stand behind all. -/
def Before (a b : Str × Str) : Prop := ∀ n, arrayIndex b.1 = some n → upTo n a = true

/-- The entries of an object. -/
structure Ordered (entries : Entries) : Prop where
  keys : (entries.map Prod.fst).Nodup
  order : entries.Pairwise Before
  noProto : ∀ e ∈ entries, e.1 ≠ proto

section objects
variable {entries : Entries} {k v : Str}

theorem any_key_iff : (entries.any fun e => decide (e.1 = k)) = true ↔ k ∈ entries.map Prod.fst := by
  rw [List.any_eq_true, List.mem_map]
  simp only [decide_eq_true_iff]

theorem mem_setParam {e : Str × Str} (mem : e ∈ setParam entries k v) : e ∈ entries ∨ e = (k, v) := by
  unfold setParam at mem
  split at mem
  · exact Or.inl mem
  · split at mem
    · obtain ⟨d, listed, rfl⟩ := List.mem_map.mp mem
      split
      · exact Or.inr rfl
      · exact Or.inl listed
    · split at mem
      · rw [List.mem_append, List.mem_singleton] at mem
        exact mem
      next n _ =>
        rw [List.mem_append, List.mem_cons] at mem
        rcases mem with mem | mem | mem
        · exact Or.inl ((List.takeWhile_sublist _).subset mem)
        · exact Or.inr mem
        · exact Or.inl ((List.dropWhile_sublist _).subset mem)

/-- What comes last is added last. -/
theorem setParam_append (ordered : Ordered (entries ++ [(k, v)])) :
    setParam entries k v = entries ++ [(k, v)] := by
  have keys := ordered.keys
  rw [List.map_append, List.nodup_append] at keys
  have new : ¬ (entries.any fun e => decide (e.1 = k)) = true := by
    rw [any_key_iff]
    exact fun listed => keys.2.2 k listed k (by simp) rfl
  have order := List.pairwise_append.mp ordered.order
  rw [setParam, if_neg (ordered.noProto (k, v) (by simp)), if_neg new]
  split
  · rfl
  next n index =>
    have all : ∀ e ∈ entries, upTo n e = true := fun e listed =>
      order.2.2 e listed (k, v) List.mem_cons_self n index
    rw [List.takeWhile_eq_self_iff.mpr all, List.dropWhile_eq_nil_iff.mpr all]

theorem Ordered.nil : Ordered [] := ⟨List.nodup_nil, List.Pairwise.nil, by simp⟩

theorem Ordered.setParam (ordered : Ordered entries) (k v : Str) :
    Ordered (setParam entries k v) := by
  by_cases reserved : k = proto
  · rw [FrontendCards.setParam, if_pos reserved]
    exact ordered
  have noProto : ∀ e ∈ FrontendCards.setParam entries k v, e.1 ≠ proto := by
    intro e mem
    rcases mem_setParam mem with mem | rfl
    · exact ordered.noProto e mem
    · exact reserved
  by_cases known : (entries.any fun e => decide (e.1 = k)) = true
  · -- the value is replaced in its place
    have same : FrontendCards.setParam entries k v =
        entries.map fun e => if e.1 = k then (k, v) else e := by
      rw [FrontendCards.setParam, if_neg reserved, if_pos known]
    have key : ∀ e : Str × Str, (if e.1 = k then (k, v) else e).1 = e.1 := by
      intro e
      split
      next is_ => exact is_.symm
      · rfl
    refine ⟨?_, ?_, noProto⟩
    · rw [same, List.map_map]
      have keys : (Prod.fst ∘ fun e : Str × Str => if e.1 = k then (k, v) else e) = Prod.fst :=
        funext key
      rw [keys]
      exact ordered.keys
    · rw [same, List.pairwise_map]
      refine ordered.order.imp ?_
      intro a b before n index
      rw [upTo, key]
      rw [key] at index
      exact before n index
  · have absent : k ∉ entries.map Prod.fst := fun listed => known (any_key_iff.mpr listed)
    cases index : arrayIndex k with
    | none =>
      have same : FrontendCards.setParam entries k v = entries ++ [(k, v)] := by
        rw [FrontendCards.setParam, if_neg reserved, if_neg known, index]
      refine ⟨?_, ?_, noProto⟩
      · rw [same, List.map_append]
        exact List.Nodup.append ordered.keys (List.nodup_singleton _)
          (List.disjoint_singleton.mpr absent)
      · rw [same, List.pairwise_append]
        refine ⟨ordered.order, List.pairwise_singleton _ _, ?_⟩
        intro a _ b mem n index'
        rw [List.mem_singleton.mp mem, index] at index'
        cases index'
    | some n =>
      have same : FrontendCards.setParam entries k v =
          entries.takeWhile (upTo n) ++ (k, v) :: entries.dropWhile (upTo n) := by
        rw [FrontendCards.setParam, if_neg reserved, if_neg known, index]
      have perm : List.Perm (FrontendCards.setParam entries k v) ((k, v) :: entries) := by
        rw [same]
        refine List.perm_middle.trans ?_
        rw [List.takeWhile_append_dropWhile]
      refine ⟨?_, ?_, noProto⟩
      · rw [(perm.map Prod.fst).nodup_iff, List.map_cons, List.nodup_cons]
        exact ⟨absent, ordered.keys⟩
      · have parts := ordered.order
        rw [← List.takeWhile_append_dropWhile (p := upTo n) (l := entries),
          List.pairwise_append] at parts
        -- the first one behind is no index, or a larger one, and so are all behind it
        have larger : ∀ b ∈ entries.dropWhile (upTo n), ∀ m, arrayIndex b.1 = some m → n ≤ m := by
          intro b mem m index'
          by_contra smaller
          cases rest : entries.dropWhile (upTo n) with
          | nil => simp [rest] at mem
          | cons first rest' =>
            have stops : ¬ upTo n first = true := by
              have head := List.head_dropWhile_not (p := upTo n) (l := entries) (by simp [rest])
              simpa [rest] using head
            have small : upTo m first = true := by
              have sorted := parts.2.1
              rw [rest] at sorted mem
              rcases List.mem_cons.mp mem with rfl | mem
              · simp [upTo, index']
              · exact (List.pairwise_cons.mp sorted).1 b mem m index'
            refine stops ?_
            simp only [upTo, Option.any_eq_true, decide_eq_true_iff] at small ⊢
            obtain ⟨i, is_, le⟩ := small
            exact ⟨i, is_, by omega⟩
        rw [same, List.pairwise_append]
        refine ⟨parts.1, ?_, ?_⟩
        · rw [List.pairwise_cons]
          refine ⟨?_, parts.2.1⟩
          intro b mem m index'
          simp only [upTo, index, Option.any_some, decide_eq_true_iff]
          exact larger b mem m index'
        · intro a mem b mem'
          rcases List.mem_cons.mp mem' with rfl | mem'
          · intro m index'
            obtain rfl := Option.some.inj (index.symm.trans index')
            exact List.mem_takeWhile_imp mem
          · exact parts.2.2 a mem b mem'

/-- What a part of a line says as an entry. -/
structure Entry (e : Str × Str) : Prop where
  key : '=' ∉ e.1
  value : e.2 ≠ [] ∧ '=' ∉ e.2

theorem addParam_entry {e : Str × Str} (entry : Entry e) :
    addParam entries (entryText e) = setParam entries e.1 e.2 := by
  have parts : (entryText e).splitOn '=' = [e.1, e.2] := by
    rw [entryText, List.splitOn_append_cons_self, List.splitOn_eq_singleton entry.key,
      List.splitOn_eq_singleton entry.value.2]
    rfl
  rw [addParam, parts]
  exact if_pos entry.value.1

/-- The part is the entry, or goes on behind it with another value. -/
def Spells (p : Str) (e : Str × Str) : Prop := p = entryText e ∨ entryText e ++ ['='] <+: p

theorem Spells.begins {p : Str} {e : Str × Str} (spells : Spells p e) : entryText e <+: p := by
  rcases spells with rfl | more
  · exact List.prefix_refl _
  · exact (List.prefix_append _ _).trans more

/-- A part adds nothing, or the entry that it begins with. -/
theorem addParam_cases (entries : Entries) (p : Str) : addParam entries p = entries ∨
    ∃ e, Entry e ∧ Spells p e ∧ addParam entries p = setParam entries e.1 e.2 := by
  unfold addParam
  split
  next k v rest parts =>
    split
    next some_ =>
      have text : p = List.intercalate ['='] (p.splitOn '=') := (List.intercalate_splitOn '=').symm
      rw [parts] at text
      have plain : ∀ piece ∈ p.splitOn '=', '=' ∉ piece := by
        intro piece listed mem
        rw [List.splitOn_eq_splitOnP] at listed
        have other := (mem_of_mem_splitOnP listed mem).2
        simp at other
      rw [parts] at plain
      refine Or.inr ⟨(k, v), ⟨plain k (by simp), some_, plain v (by simp)⟩, ?_, rfl⟩
      cases rest with
      | nil =>
        left
        rw [text, entryText]
        simp [List.intercalate]
      | cons next rest =>
        right
        rw [text, entryText]
        exact ⟨List.intercalate ['='] (next :: rest), by simp [List.intercalate_cons_cons]⟩
    · exact Or.inl rfl
  · exact Or.inl rfl

/-- The entries of an object are what its parts say. -/
theorem foldl_addParam_ordered (parts : List Str) :
    ∀ entries, Ordered entries → Ordered (parts.foldl addParam entries) := by
  induction parts with
  | nil => exact fun _ ordered => ordered
  | cons p parts ih =>
    intro entries ordered
    refine ih _ ?_
    rcases addParam_cases entries p with same | ⟨e, _, _, set⟩
    · rw [same]
      exact ordered
    · rw [set]
      exact ordered.setParam e.1 e.2

theorem mem_foldl_addParam {parts : List Str} {e : Str × Str}
    (mem : e ∈ parts.foldl addParam entries) :
    e ∈ entries ∨ Entry e ∧ ∃ p ∈ parts, Spells p e := by
  induction parts generalizing entries with
  | nil => exact Or.inl mem
  | cons p parts ih =>
    rcases ih mem with mem | ⟨entry, q, listed, spells⟩
    · rcases addParam_cases entries p with same | ⟨d, entry, spells, set⟩
      · rw [same] at mem
        exact Or.inl mem
      · rw [set] at mem
        rcases mem_setParam mem with mem | rfl
        · exact Or.inl mem
        · exact Or.inr ⟨entry, p, List.mem_cons_self, spells⟩
    · exact Or.inr ⟨entry, q, List.mem_cons_of_mem p listed, spells⟩

/-- Entries that are written come back. -/
theorem foldl_addParam_entries (entries : Entries) {more : Entries}
    (ordered : Ordered (entries ++ more)) (are : ∀ e ∈ more, Entry e) :
    (more.map entryText).foldl addParam entries = entries ++ more := by
  induction more generalizing entries with
  | nil => simp
  | cons e more ih =>
    obtain ⟨first, are⟩ := List.forall_mem_cons.mp are
    have split_ : entries ++ e :: more = (entries ++ [e]) ++ more := by simp
    have front : Ordered (entries ++ [e]) := by
      rw [split_] at ordered
      obtain ⟨keys, order, noProto⟩ := ordered
      rw [List.map_append, List.nodup_append] at keys
      exact ⟨keys.1, (List.pairwise_append.mp order).1,
        fun d mem => noProto d (List.mem_append_left _ mem)⟩
    rw [List.map_cons, List.foldl_cons, addParam_entry first, setParam_append front,
      ih _ (split_ ▸ ordered) are, split_]

end objects

/-! ## Lines of properties -/

/-- Parts, each behind a semicolon. -/
def semis (parts : List Str) : Str := parts.flatMap fun part => ';' :: part

theorem semis_eq {parts : List Str} (some_ : parts ≠ []) :
    semis parts = ';' :: List.intercalate [';'] parts := by
  induction parts with
  | nil => exact absurd rfl some_
  | cons part parts ih =>
    cases parts with
    | nil => simp [semis]
    | cons next parts =>
      have rest : semis (part :: next :: parts) = ';' :: (part ++ semis (next :: parts)) := rfl
      rw [rest, ih (List.cons_ne_nil _ _), List.intercalate_cons_cons]
      simp

theorem splitOn_semis {first : Str} {parts : List Str} (first_ : ';' ∉ first)
    (plain : ∀ part ∈ parts, ';' ∉ part) : (first ++ semis parts).splitOn ';' = first :: parts := by
  induction parts generalizing first with
  | nil => rw [semis, List.flatMap_nil, List.append_nil, List.splitOn_eq_singleton first_]
  | cons part parts ih =>
    obtain ⟨part_, plain⟩ := List.forall_mem_cons.mp plain
    have rest : semis (part :: parts) = ';' :: (part ++ semis parts) := rfl
    rw [rest, List.splitOn_append_cons_self, List.splitOn_eq_singleton first_, ih part_ plain]
    rfl

theorem paramsString_eq (entries : Entries) :
    paramsString entries = List.intercalate [';'] (entries.map entryText) := by
  have all : ∀ t ∈ entries.map entryText, decide (t ≠ []) = true := by
    intro t listed
    obtain ⟨e, -, rfl⟩ := List.mem_map.mp listed
    simp [entryText]
  rw [paramsString, List.filter_eq_self.mpr all]

theorem semis_entries (entries : Entries) : semis (entries.map entryText) =
    if paramsString entries ≠ [] then ';' :: paramsString entries else [] := by
  rw [paramsString_eq]
  cases entries with
  | nil => rfl
  | cons e entries =>
    have some_ : (e :: entries).map entryText ≠ [] := List.cons_ne_nil _ _
    have text : List.intercalate [';'] ((e :: entries).map entryText) ≠ [] := by
      cases entries with
      | nil => simp [entryText, List.intercalate]
      | cons d entries =>
        rw [List.map_cons, List.map_cons, List.intercalate_cons_cons]
        simp [entryText]
    rw [if_pos text, semis_eq some_]

theorem toLine_eq (p : VCProperty) :
    p.toLine = p.name ++ semis (p.params.map entryText) ++ ':' :: p.value := by
  rw [toLine, semis_entries, List.append_assoc]

/-- The names that make a line no property. -/
def lineNames : List Str := ["BEGIN", "END", "VCARD"].map String.toList

theorem fromLine_eq {name : Str} {parts : List Str} (trimmed : trim name = name)
    (name_ : ';' ∉ name) (plain : ∀ part ∈ parts, ';' ∉ part) (colon : ':' ∉ name ++ semis parts)
    (value : Str) : fromLine (name ++ semis parts ++ ':' :: value) =
      if name ∈ lineNames then none else some ⟨name, (parts.map trim).foldl addParam [], value⟩ := by
  simp only [fromLine, cut_append colon, Option.getD_some, splitOn_semis name_ plain,
    List.map_cons, trimmed, lineNames, List.map_nil, List.mem_cons, List.not_mem_nil, or_false]
  by_cases ends : name = "BEGIN".toList ∨ name = "END".toList
  · rw [if_pos ends, if_pos]
    exact ends.elim Or.inl fun is_ => Or.inr (Or.inl is_)
  · rw [if_neg ends]
    rw [not_or] at ends
    refine if_congr ?_ rfl rfl
    simp only [ends, false_or]

/-! ## What is kept of the parameters -/

/-- The parameters as they are listed. -/
def paramStrs (params : Str) : List Str := if params = [] then [] else params.splitOn ';'

def paramsOf (params : Str) : Entries := ((paramStrs params).map trim).foldl addParam []

/-- What the page writes of parameters that it has read. -/
def kept (params : Str) : Str := paramsString (paramsOf params)

/-- Parameters that are all written with a value, as an object has them. -/
def Canonical (params : Str) : Prop :=
  ∃ entries, Ordered entries ∧
    (∀ e ∈ entries, Entry e ∧ ';' ∉ entryText e ∧ trim (entryText e) = entryText e) ∧
    params = paramsString entries

theorem paramStrs_plain {params part : Str} (listed : part ∈ paramStrs params) : ';' ∉ part := by
  unfold paramStrs at listed
  split at listed
  · cases listed
  · intro mem
    rw [List.splitOn_eq_splitOnP] at listed
    have other := (mem_of_mem_splitOnP listed mem).2
    simp at other

theorem paramStrs_intercalate {parts : List Str} (plain : ∀ part ∈ parts, part ≠ [] ∧ ';' ∉ part) :
    paramStrs (List.intercalate [';'] parts) = parts := by
  cases parts with
  | nil => rfl
  | cons part parts =>
    obtain ⟨⟨first, first'⟩, plain⟩ := List.forall_mem_cons.mp plain
    have joined : List.intercalate [';'] (part :: parts) = part ++ semis parts := by
      have whole := semis_eq (List.cons_ne_nil part parts)
      have cons : semis (part :: parts) = ';' :: (part ++ semis parts) := rfl
      rw [cons] at whole
      exact (List.cons.inj whole).2.symm
    rw [paramStrs, if_neg, joined, splitOn_semis first' fun p listed => (plain p listed).2]
    rw [joined]
    simp [first]

theorem paramStrs_entries {entries : Entries} (plain : ∀ e ∈ entries, ';' ∉ entryText e) :
    paramStrs (paramsString entries) = entries.map entryText := by
  rw [paramsString_eq]
  refine paramStrs_intercalate ?_
  intro part listed
  obtain ⟨e, mem, rfl⟩ := List.mem_map.mp listed
  exact ⟨by simp [entryText], plain e mem⟩

theorem ordered_paramsOf (params : Str) : Ordered (paramsOf params) :=
  foldl_addParam_ordered _ [] Ordered.nil

theorem mem_paramsOf {params : Str} {e : Str × Str} (mem : e ∈ paramsOf params) :
    Entry e ∧ ∃ part ∈ paramStrs params, entryText e <+: trim part := by
  rcases mem_foldl_addParam mem with mem | ⟨entry, p, listed, spells⟩
  · cases mem
  · obtain ⟨part, mem, rfl⟩ := List.mem_map.mp listed
    exact ⟨entry, part, mem, spells.begins⟩

theorem trim_inside (s : Str) : trim s <:+: s :=
  (List.rdropWhile_prefix _ _).isInfix.trans (List.dropWhile_suffix _).isInfix

theorem paramsOf_plain {params : Str} : ∀ e ∈ paramsOf params, ';' ∉ entryText e := by
  intro e mem
  obtain ⟨-, part, listed, front⟩ := mem_paramsOf mem
  intro semicolon
  exact paramStrs_plain listed ((front.isInfix.trans (trim_inside part)).subset semicolon)

/-! ### The length of what is kept -/

/-- The characters of texts, and one more for each. -/
def size (texts : List Str) : Nat := (texts.map fun t => t.length + 1).sum

theorem size_cons (t : Str) (ts : List Str) : size (t :: ts) = t.length + 1 + size ts := by
  simp [size]

theorem size_append (ts us : List Str) : size (ts ++ us) = size ts + size us := by
  simp [size]

/-- A value in the place of another one. -/
theorem size_replace {entries : Entries} (keys : (entries.map Prod.fst).Nodup) (k v : Str) :
    size ((entries.map fun e => if e.1 = k then (k, v) else e).map entryText) ≤
      size (entries.map entryText) + v.length := by
  induction entries with
  | nil => exact Nat.zero_le _
  | cons e entries ih =>
    rw [List.map_cons, List.nodup_cons] at keys
    simp only [List.map_cons, size_cons]
    split
    next is_ =>
      have same : (entries.map fun e => if e.1 = k then (k, v) else e) = entries := by
        refine (List.map_congr_left ?_).trans (List.map_id entries)
        intro d listed
        refine if_neg ?_
        rintro rfl
        exact keys.1 (List.mem_map.mpr ⟨d, listed, is_.symm⟩)
      rw [same]
      simp only [entryText, List.length_append, List.length_cons, is_]
      omega
    next other =>
      have rest := ih keys.2
      omega

theorem size_addParam {entries : Entries} (ordered : Ordered entries) (p : Str) :
    size ((addParam entries p).map entryText) ≤ size (entries.map entryText) + (p.length + 1) := by
  rcases addParam_cases entries p with same | ⟨e, -, spells, set⟩
  · rw [same]
    exact Nat.le_add_right _ _
  · have short := spells.begins.length_le
    rw [set, setParam]
    split
    · exact Nat.le_add_right _ _
    · split
      · have replaced := size_replace ordered.keys e.1 e.2
        simp only [entryText, List.length_append, List.length_cons] at short
        omega
      · split
        · rw [List.map_append, size_append, List.map_cons, size_cons]
          exact Nat.add_le_add_left (Nat.add_le_add_right short 1) _
        next n _ =>
          have whole : size (entries.map entryText) =
              size ((entries.takeWhile (upTo n)).map entryText) +
                size ((entries.dropWhile (upTo n)).map entryText) := by
            rw [← size_append, ← List.map_append, List.takeWhile_append_dropWhile]
          have same : entryText (e.1, e.2) = entryText e := rfl
          rw [List.map_append, size_append, List.map_cons, size_cons, whole, same]
          omega

theorem size_foldl_addParam (parts : List Str) :
    ∀ entries, Ordered entries → size ((parts.foldl addParam entries).map entryText) ≤
      size (entries.map entryText) + size parts := by
  induction parts with
  | nil => exact fun _ _ => le_refl _
  | cons p parts ih =>
    intro entries ordered
    have next := ih _ (foldl_addParam_ordered [p] entries ordered)
    have one := size_addParam ordered p
    rw [size_cons]
    exact next.trans (by simp only [List.foldl_cons, List.foldl_nil]; omega)

theorem trim_of_size {parts : List Str} (large : size parts ≤ size (parts.map trim)) :
    ∀ part ∈ parts, trim part = part := by
  have short (part : Str) : (trim part).length ≤ part.length := (trim_inside part).length_le
  have le (parts : List Str) : size (parts.map trim) ≤ size parts := by
    induction parts with
    | nil => exact le_refl _
    | cons part parts ih =>
      rw [List.map_cons, size_cons, size_cons]
      have first := short part
      omega
  induction parts with
  | nil => simp
  | cons part parts ih =>
    rw [List.map_cons, size_cons, size_cons] at large
    have first := short part
    have rest := le parts
    rw [List.forall_mem_cons]
    exact ⟨(trim_inside part).eq_of_length (by omega), ih (by omega)⟩

/-- The page keeps exactly the parameters that are as it writes them. -/
theorem kept_eq_iff (params : Str) : kept params = params ↔ Canonical params := by
  constructor
  · intro same
    have parts : paramStrs params = (paramsOf params).map entryText := by
      have listed := paramStrs_entries fun e (mem : e ∈ paramsOf params) => paramsOf_plain e mem
      rw [← listed]
      exact congrArg paramStrs same.symm
    refine ⟨paramsOf params, ordered_paramsOf params, ?_, same.symm⟩
    have trimmed : ∀ part ∈ paramStrs params, trim part = part := by
      refine trim_of_size ?_
      have bound := size_foldl_addParam ((paramStrs params).map trim) [] Ordered.nil
      rw [List.map_nil, ← paramsOf, ← parts] at bound
      simpa [size] using bound
    intro e mem
    refine ⟨(mem_paramsOf mem).1, paramsOf_plain e mem, trimmed _ ?_⟩
    rw [parts]
    exact List.mem_map_of_mem mem
  · rintro ⟨entries, ordered, are, rfl⟩
    have trimmed : (entries.map entryText).map trim = entries.map entryText := by
      rw [List.map_map]
      exact List.map_congr_left fun e mem => (are e mem).2.2
    rw [kept, paramsOf, paramStrs_entries fun e mem => (are e mem).2.1, trimmed]
    exact congrArg paramsString
      (foldl_addParam_entries [] ordered fun e mem => (are e mem).1)

end FrontendCards
