import Fiy.DecimalTexts

/-!
# Hosts and ports of requests

Where `HttpClient::request` and `HttpsClient::request` connect to, and what both make of the
same domain. A port with five digits is not read, and the second one cuts a character too many.
-/

namespace HostPorts

open ByteStrings DecimalTexts

/-- `substr(0, count)`; a count that wraps around takes everything. -/
def front (host : Text) : Option Nat → Text
  | none => host
  | some count => host.take count

/-- `colon_pos - 1` -/
def before : Nat → Option Nat
  | 0 => none
  | n + 1 => some n

/-- What both clients do with a host: their own port stays unless there is another one, and their
own count says how much of the host is left then. -/
def split (port : Text) (count : Nat → Option Nat) (host : Text) : Text × Text :=
  match cut 58 host with
  | none => (host, port)
  | some (name, portStr) =>
    if portStr.length < 5 then
      -- `atoi`
      let portNumber := (strtolValue (cstr portStr)).getD 0
      if portNumber < 65535 ∧ portNumber > 0 then
        (front host (count name.length), decimalInt portNumber)
      else (host, port)
    else (host, port)

/-- `HttpClient::request`: the host and the port that are resolved -/
def httpRequest (host : Text) : Text × Text := split "80" some host

/-- `HttpsClient::request`: the host and the port that are resolved -/
def httpsRequest (host : Text) : Text × Text := split "443" before host

/-- The clients take the same part of the domain for the host. -/
def CutAlike (domain : Text) : Prop := (httpRequest domain).1 = (httpsRequest domain).1

/-- A host name without a colon, and a port if there is one. -/
structure Domain where
  host : Text
  port : Option Nat
  colonless : 58 ∉ host
  bounds : ∀ p ∈ port, 1 ≤ p ∧ p ≤ 65535

namespace Domain
variable (d : Domain)

def text : Text := d.host ++ d.port.elim [] fun p => 58 :: decimal p

/-- Both clients connect to the host at its port, or at their own if it has none, and have cut
the domain alike. -/
structure Meets : Prop where
  http : httpRequest d.text = (d.host, decimal (d.port.getD 80))
  https : httpsRequest d.text = (d.host, decimal (d.port.getD 443))
  alike : CutAlike d.text

end Domain

/-- The port of a domain is read. -/
def PortTaken (domain : Text) : Prop :=
  ∃ name portStr, cut 58 domain = some (name, portStr) ∧ portStr.length < 5 ∧
    (strtolValue (cstr portStr)).getD 0 < 65535 ∧ (strtolValue (cstr portStr)).getD 0 > 0

section split
variable {port : Text} {count : Nat → Option Nat} {domain : Text}

theorem split_untaken (untaken : ¬ PortTaken domain) :
    split port count domain = (domain, port) := by
  unfold split
  cases parts : cut 58 domain with
  | none => rfl
  | some pair =>
    obtain ⟨name, portStr⟩ := pair
    by_cases short : portStr.length < 5
    · have refused : ¬ ((strtolValue (cstr portStr)).getD 0 < 65535 ∧
          (strtolValue (cstr portStr)).getD 0 > 0) :=
        fun range => untaken ⟨name, portStr, parts, short, range⟩
      simp only [if_pos short, if_neg refused]
    · simp only [if_neg short]

theorem split_taken {name portStr : Text} (parts : cut 58 domain = some (name, portStr))
    (short : portStr.length < 5) (range : (strtolValue (cstr portStr)).getD 0 < 65535 ∧
      (strtolValue (cstr portStr)).getD 0 > 0) :
    split port count domain = (front domain (count name.length),
      decimalInt ((strtolValue (cstr portStr)).getD 0)) := by
  simp only [split, parts, if_pos short, if_pos range]

/-- The count of the second client is one too small, or is none. -/
theorem front_ne {name portStr : Text} (parts : cut 58 domain = some (name, portStr)) :
    front domain (some name.length) ≠ front domain (before name.length) := by
  obtain ⟨rfl, -⟩ := cut_eq_some_iff.mp parts
  intro same
  have lengths := congrArg List.length same
  cases some_ : name.length with
  | zero =>
    simp [front, before, some_] at lengths
  | succ n =>
    simp only [front, before, some_, List.length_take, List.length_append] at lengths
    omega

/-- The clients cut a domain alike as long as they do not read a port in it. -/
theorem cutAlike_iff (domain : Text) : CutAlike domain ↔ ¬ PortTaken domain := by
  constructor
  · rintro alike ⟨name, portStr, parts, short, range⟩
    rw [CutAlike, httpRequest, httpsRequest, split_taken parts short range,
      split_taken parts short range] at alike
    exact front_ne parts alike
  · intro untaken
    rw [CutAlike, httpRequest, httpsRequest, split_untaken untaken, split_untaken untaken]

end split

/-! ## Ports -/

theorem length_decimal_lt_iff (p : Nat) : (decimal p).length < 5 ↔ p < 10000 := by
  have digits := Nat.length_toDigits_le_iff (b := 10) (n := p) (k := 4) (by omega) (by omega)
  rw [decimal, List.length_map]
  omega

section domains
variable {host : Text} {p : Nat}

theorem cut_port (colonless : 58 ∉ host) (p : Nat) :
    cut 58 (host ++ 58 :: decimal p) = some (host, decimal p) := cut_append colonless _

theorem strtolValue_port (p : Nat) : (strtolValue (cstr (decimal p))).getD 0 = p := by
  have digits : ∀ b ∈ decimal p, isDigit b = true := fun b mem => isDigit_of_mem_decimal mem
  have whole : cstr (decimal p) = decimal p := by
    rw [cstr_eq_self_iff]
    exact fun zero => absurd (digits 0 zero) (by decide)
  rw [whole, strtolValue_of_digits digits (decimal_ne_nil p), ofDecimal_decimal]
  rfl

/-- A port is read if and only if it has fewer than five digits. -/
theorem portTaken_iff (colonless : 58 ∉ host) (bounds : 1 ≤ p ∧ p ≤ 65535) :
    PortTaken (host ++ 58 :: decimal p) ↔ p < 10000 := by
  constructor
  · rintro ⟨name, portStr, parts, short, -⟩
    rw [cut_port colonless] at parts
    cases parts
    exact (length_decimal_lt_iff p).mp short
  · intro small
    refine ⟨host, decimal p, cut_port colonless p, (length_decimal_lt_iff p).mpr small, ?_⟩
    rw [strtolValue_port]
    omega

theorem portTaken_bare (colonless : 58 ∉ host) : ¬ PortTaken host := by
  rintro ⟨name, portStr, parts, -⟩
  rw [cut_eq_none_iff.mpr colonless] at parts
  cases parts

/-- The first client connects to the right port exactly below 10000. -/
theorem httpRequest_port_iff (colonless : 58 ∉ host) (bounds : 1 ≤ p ∧ p ≤ 65535) :
    httpRequest (host ++ 58 :: decimal p) = (host, decimal p) ↔ p < 10000 := by
  constructor
  · intro right
    by_contra large
    rw [httpRequest, split_untaken ((portTaken_iff colonless bounds).not.mpr large)] at right
    have whole : host ++ 58 :: decimal p = host := congrArg Prod.fst right
    exact colonless (whole ▸ List.mem_append_right host List.mem_cons_self)
  · intro small
    have short := (length_decimal_lt_iff p).mpr small
    have text : decimalInt (p : Int) = decimal p := by
      rw [decimalInt, if_neg (by omega), Int.natAbs_natCast]
    rw [httpRequest, split_taken (cut_port colonless p) short (by rw [strtolValue_port]; omega),
      strtolValue_port, text, front, List.take_left]

end domains

/-- Both clients connect to a domain as they should if and only if it has no port, and they cut a
domain alike if and only if they read no port in it. -/
theorem requests_meet_iff (d : Domain) (domain : Text) :
    (d.Meets ↔ d.port = none) ∧ (CutAlike domain ↔ ¬ PortTaken domain) := by
  refine ⟨?_, cutAlike_iff domain⟩
  obtain ⟨host, port, colonless, bounds⟩ := d
  cases port with
  | none =>
    refine iff_of_true ?_ rfl
    have bare : (⟨host, none, colonless, bounds⟩ : Domain).text = host := List.append_nil host
    have untaken := portTaken_bare colonless
    have own : lit "80" = decimal 80 ∧ lit "443" = decimal 443 := by decide +kernel
    refine ⟨?_, ?_, ?_⟩
    · rw [bare, httpRequest, split_untaken untaken, own.1]
      rfl
    · rw [bare, httpsRequest, split_untaken untaken, own.2]
      rfl
    · rw [bare]
      exact (cutAlike_iff host).mpr untaken
  | some p =>
    refine iff_of_false (fun meets => ?_) (Option.some_ne_none p)
    have range := bounds p rfl
    have small : p < 10000 := (httpRequest_port_iff colonless range).mp meets.http
    exact (cutAlike_iff _).mp meets.alike ((portTaken_iff colonless range).mpr small)

/-- A port with four digits takes the last letter with it, and one with five is not read. -/
theorem port_not_met :
    httpsRequest "peer.example:8080" = (lit "peer.exampl", lit "8080") ∧
      httpRequest "peer.example:18080" = (lit "peer.example:18080", lit "80") ∧
      ¬ (⟨"peer.example", some 8080, by decide +kernel, by decide⟩ : Domain).Meets := by
  refine ⟨by decide +kernel, by decide +kernel, fun meets => ?_⟩
  have cut_ := meets.https
  revert cut_
  decide +kernel

end HostPorts
