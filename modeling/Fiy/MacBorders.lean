import Fiy.DecimalTexts
import Fiy.Sessions

/-!
# Borders inside the authenticated text

`Peer::sig` joins five values of any length without separators. Four ways of moving
a border between neighbours are followed here: from the user into the path, from the
path into the user, from the mod's id into the path, and from the two numbers into the
user. What none of them changes is the only request its signature stands for.
-/

namespace MacBorders

open ByteStrings DecimalTexts HostEnvironment PeerLinks HttpMessages Sessions

/-- The signed values: the path is rooted, and the time is a text of digits. -/
@[ext] structure Signed where
  appid : Text
  path : Text
  user : Text
  bodyLen : Nat
  ts : Text
  rooted : path.head? = some slash
  stamped : ts ≠ [] ∧ ∀ b ∈ ts, isDigit b = true

namespace Signed

def macInput (x : Signed) : Text := Peer.macInput x.appid x.path x.user x.bodyLen x.ts

def sig (c : Crypto) (p : Peer) (x : Signed) : Text :=
  p.sig c x.appid x.path x.user x.bodyLen x.ts

/-- No other request has the same authenticated text. -/
def Unambiguous (x : Signed) : Prop := ∀ y : Signed, y.macInput = x.macInput → y = x

/-- Where the HMAC is injective, no other request has the same signature. -/
def Unreplayable (x : Signed) : Prop :=
  ∀ (c : Crypto) (p : Peer), Function.Injective (c.hmac p.auth.symKey) →
    ∀ y : Signed, y.sig c p = x.sig c p → y = x

/-- No border can move: nothing is left on either side of it to move. -/
def Tight (x : Signed) : Prop :=
  slash ∉ x.appid ∧ x.path = [slash] ∧ x.user = [] ∧ x.bodyLen < 10 ∧ x.ts.length = 1

theorem macInput_eq_iff (x y : Signed) : y.macInput = x.macInput ↔
    y.appid ++ y.path ++ y.user ++ decimal y.bodyLen ++ y.ts =
      x.appid ++ x.path ++ x.user ++ decimal x.bodyLen ++ x.ts := by
  simp [macInput, Peer.macInput]

theorem path_eq_cons (x : Signed) : x.path = slash :: x.path.tail := by
  have rooted := x.rooted
  cases hp : x.path with
  | nil => simp [hp] at rooted
  | cons b rest =>
    simp only [hp, List.head?_cons, Option.some.injEq] at rooted
    rw [rooted, List.tail_cons]

/-! ## Moving a border -/

/-- The user's bytes are read as the end of the path. -/
def absorbUser (x : Signed) : Signed where
  appid := x.appid
  path := x.path ++ x.user
  user := []
  bodyLen := x.bodyLen
  ts := x.ts
  rooted := by rw [path_eq_cons]; rfl
  stamped := x.stamped

/-- All of the path but its root is read as the beginning of the user. -/
def releasePath (x : Signed) : Signed where
  appid := x.appid
  path := [slash]
  user := x.path.tail ++ x.user
  bodyLen := x.bodyLen
  ts := x.ts
  rooted := rfl
  stamped := x.stamped

/-- The mod's id ends at its first slash. -/
def shortenAppid (x : Signed) (before after : Text) : Signed where
  appid := before
  path := slash :: after ++ x.path
  user := x.user
  bodyLen := x.bodyLen
  ts := x.ts
  rooted := rfl
  stamped := x.stamped

theorem absorbUser_macInput (x : Signed) : x.absorbUser.macInput = x.macInput := by
  simp [macInput_eq_iff, absorbUser]

theorem releasePath_macInput (x : Signed) : x.releasePath.macInput = x.macInput := by
  rw [macInput_eq_iff]
  conv_rhs => rw [path_eq_cons x]
  simp [releasePath]

theorem shortenAppid_macInput (x : Signed) {before after : Text}
    (found : cut slash x.appid = some (before, after)) :
    (x.shortenAppid before after).macInput = x.macInput := by
  obtain ⟨joined, _⟩ := cut_eq_some_iff.mp found
  simp [macInput_eq_iff, shortenAppid, joined]

/-- All but the last two digits are read as the end of the user. -/
theorem exists_released_digits (x : Signed) :
    ∃ y : Signed, y.macInput = x.macInput ∧ y.bodyLen < 10 ∧ y.ts.length = 1 := by
  obtain ⟨front, last, hts⟩ := List.eq_nil_or_concat x.ts |>.resolve_left x.stamped.1
  have hdigits : ∀ b ∈ decimal x.bodyLen ++ front, isDigit b = true := by
    intro b hb
    rcases List.mem_append.mp hb with hb | hb
    · exact isDigit_of_mem_decimal hb
    · exact x.stamped.2 b (by simp [hts, hb])
  have nonempty : decimal x.bodyLen ++ front ≠ [] := by simp [decimal_ne_nil]
  obtain ⟨moved, digit, hmoved⟩ :=
    List.eq_nil_or_concat (decimal x.bodyLen ++ front) |>.resolve_left nonempty
  obtain ⟨n, small, written⟩ := exists_decimal (hdigits digit (by simp [hmoved]))
  refine ⟨⟨x.appid, x.path, x.user ++ moved, n, [last], x.rooted, ?_⟩, ?_, small, rfl⟩
  · exact ⟨by simp, fun b hb => x.stamped.2 b (by simp_all)⟩
  · rw [macInput_eq_iff]
    have numbers : decimal x.bodyLen ++ x.ts = moved ++ [digit] ++ [last] := by
      rw [hts, List.concat_eq_append, ← List.append_assoc, hmoved, List.concat_eq_append]
    simp only [List.append_assoc, numbers, written]

theorem Unambiguous.tight {x : Signed} (only : x.Unambiguous) : x.Tight := by
  refine ⟨?_, ?_, ?_, ?_⟩
  · intro found
    cases hcut : cut slash x.appid with
    | none => exact cut_eq_none_iff.mp hcut found
    | some parts =>
      obtain ⟨before, after⟩ := parts
      have same := congrArg appid (only _ (x.shortenAppid_macInput hcut))
      have shorter := cut_length hcut
      rw [← same] at shorter
      simp only [shortenAppid] at shorter
      omega
  · have same := only _ x.releasePath_macInput
    exact (congrArg path same).symm
  · have same := only _ x.absorbUser_macInput
    exact (congrArg user same).symm
  · obtain ⟨y, same, small, single⟩ := x.exists_released_digits
    rw [only y same] at small single
    exact ⟨small, single⟩

/-- With two digits at the end and one slash in front of them, every value of another
request with the same text is where this one's is. -/
theorem Tight.unambiguous {x : Signed} (tight : x.Tight) : x.Unambiguous := by
  obtain ⟨noSlash, hpath, huser, small, single⟩ := tight
  intro y same
  rw [macInput_eq_iff, hpath, huser] at same
  have digits : ∀ b ∈ decimal x.bodyLen ++ x.ts, isDigit b = true := by
    intro b hb
    exact (List.mem_append.mp hb).elim isDigit_of_mem_decimal (x.stamped.2 b)
  have same' : y.appid ++ slash :: (y.path.tail ++ y.user ++ (decimal y.bodyLen ++ y.ts)) =
      x.appid ++ slash :: (decimal x.bodyLen ++ x.ts) := by
    rw [path_eq_cons y] at same
    simpa using same
  -- the only slash of the text is the root of both paths
  have noSlash' : slash ∉ y.appid := by
    intro found
    have more := congrArg (List.count slash) same'
    have first : 0 < List.count slash y.appid := List.count_pos_iff.mpr found
    have one : List.count slash (x.appid ++ slash :: (decimal x.bodyLen ++ x.ts)) = 1 := by
      rw [List.count_append, List.count_cons_self, List.count_eq_zero_of_not_mem noSlash,
        List.count_eq_zero_of_not_mem (slash_notMem_of_digits digits)]
    rw [one, List.count_append, List.count_cons_self] at more
    omega
  have parts : some (y.appid, y.path.tail ++ y.user ++ (decimal y.bodyLen ++ y.ts)) =
      some (x.appid, decimal x.bodyLen ++ x.ts) := by
    rw [← cut_append noSlash', same', cut_append noSlash]
  simp only [Option.some.injEq, Prod.mk.injEq] at parts
  obtain ⟨happid, hrest⟩ := parts
  have lengths := congrArg List.length hrest
  have bodyLen_pos := decimal_length_pos y.bodyLen
  have ts_pos := List.length_pos_iff.mpr y.stamped.1
  have one_digit := (decimal_length_one_iff x.bodyLen).mpr small
  simp only [List.length_append] at lengths
  have tail_nil : y.path.tail = [] := List.length_eq_zero_iff.mp (by omega)
  have user_nil : y.user = [] := List.length_eq_zero_iff.mp (by omega)
  rw [tail_nil, user_nil, List.nil_append, List.nil_append] at hrest
  obtain ⟨hlen, hts⟩ := List.append_inj hrest (by omega)
  have hpath' : y.path = x.path := by rw [path_eq_cons y, tail_nil, hpath]
  exact Signed.ext happid hpath' (user_nil.trans huser.symm) (decimal_injective hlen) hts

theorem Unambiguous.unreplayable {x : Signed} (only : x.Unambiguous) : x.Unreplayable :=
  fun _ _ injective y same => only y (injective same)

/-- Exactly the requests without a movable border are bound by their signature. -/
theorem bound_iff (x : Signed) : (x.Unambiguous ∧ x.Unreplayable) ↔ x.Tight := by
  constructor
  · intro bound
    exact bound.1.tight
  · intro tight
    exact ⟨tight.unambiguous, tight.unambiguous.unreplayable⟩

end Signed

/-! ## One signature for two people -/

/-- `bob` of the linked instance reads the page `/a`. -/
def bobReads : Signed where
  appid := "blog"
  path := "/a"
  user := "bob"
  bodyLen := 0
  ts := "1000"
  rooted := by decide
  stamped := by decide +kernel

/-- The same bytes, read as a request of `ob` for the page `/ab`. -/
def obReads : Signed where
  appid := "blog"
  path := "/ab"
  user := "ob"
  bodyLen := 0
  ts := "1000"
  rooted := by decide
  stamped := by decide +kernel

/-- A request that carries the values of one signed request and a given signature. -/
def carry (x : Signed) (signature : Text) : Request where
  method := .get
  target := lit "/mods/" ++ x.appid
  fields := [(lit "Fiy-Peer", lit ".t"), (lit "Fiy-User", x.user), (lit "Fiy-Path", x.path),
    (lit "Fiy-Now", x.ts), (lit "Authorization", signature)]
  body := []

/-- The signature made for `bob` admits `ob` to another page. -/
theorem signature_admits_another :
    bobReads.macInput = obReads.macInput ∧ bobReads ≠ obReads ∧
    findPeerUser demoHost (carry bobReads (bobReads.sig demoCrypto demoPeer)) (some "blog") =
      .ok (some ⟨some "b.net", "bob"⟩) ∧
    findPeerUser demoHost (carry obReads (bobReads.sig demoCrypto demoPeer)) (some "blog") =
      .ok (some ⟨some "b.net", "ob"⟩) := by
  refine ⟨by decide, ?_, by decide +kernel, by decide +kernel⟩
  intro same
  have := congrArg Signed.user same
  revert this
  decide

end MacBorders
