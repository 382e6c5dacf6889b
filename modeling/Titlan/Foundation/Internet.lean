import Mathlib.Algebra.Ring.Nat
import Mathlib.Data.List.Basic
import Mathlib.Data.List.TakeWhile

/-! # Addresses and origins

Internet addresses and names as text, and what the URL standard reads from an `http` or `https` URL: the
host, the port and whether TLS is used. Texts are lists of characters. The hosts of the URLs are read in
ASCII, without percent-encoded bytes, and labels in Punycode are not decoded. -/

namespace Foundation.Internet

/-! ## Numbers -/

/-- The value of a digit in a radix up to sixteen. -/
def digitValue (c : Char) : Option ℕ :=
  if '0' ≤ c ∧ c ≤ '9' then some (c.toNat - '0'.toNat)
  else if 'a' ≤ c ∧ c ≤ 'f' then some (c.toNat - 'a'.toNat + 10)
  else if 'A' ≤ c ∧ c ≤ 'F' then some (c.toNat - 'A'.toNat + 10)
  else none

/-- A digit of the radix. -/
def isDigitOf (radix : ℕ) (c : Char) : Bool := (digitValue c).any (· < radix)

/-- A number in a radix, of at least one digit. -/
def number (radix : ℕ) (digits : List Char) : Option ℕ :=
  if digits ≠ [] ∧ digits.all (isDigitOf radix) then
    some (digits.foldl (fun n c => n * radix + (digitValue c).getD 0) 0)
  else
    none

variable {c : Char}

theorem le_of_isDigitOf_ten (h : isDigitOf 10 c = true) : '0' ≤ c ∧ c ≤ '9' := by
  rw [isDigitOf, digitValue] at h
  split_ifs at h with hdigit hlower hupper
  · exact hdigit
  · simp only [Option.any_some, decide_eq_true_eq] at h
    omega
  · simp only [Option.any_some, decide_eq_true_eq] at h
    omega
  · cases h

variable {digits : List Char}

theorem number_eq_some {radix n : ℕ} (h : number radix digits = some n) :
    digits ≠ [] ∧ ∀ c ∈ digits, isDigitOf radix c = true := by
  rw [number] at h
  split_ifs at h with hdigits
  exact ⟨hdigits.1, List.all_eq_true.mp hdigits.2⟩

/-- A port. -/
def port (digits : List Char) : Option ℕ := (number 10 digits).filter (· ≤ 65535)

theorem number_of_port {n : ℕ} (h : port digits = some n) : number 10 digits = some n :=
  (Option.filter_eq_some_iff.mp h).1

/-! ## IPv4 -/

/-- A number of at most 255, without leading zeros. -/
def octet (digits : List Char) : Option ℕ :=
  if digits.length ≠ 1 ∧ digits.head? = some '0' then none else (number 10 digits).filter (· ≤ 255)

/-- The address of four numbers. -/
def quad (a b c d : ℕ) : ℕ := ((a * 256 + b) * 256 + c) * 256 + d

/-- An address in dotted decimal notation. -/
def ipv4 (text : List Char) : Option ℕ :=
  match text.splitOn '.' with
  | [a, b, c, d] => do return quad (← octet a) (← octet b) (← octet c) (← octet d)
  | _ => none

/-! ## IPv6 -/

/-- A group of one to four hexadecimal digits. -/
def hexGroup (digits : List Char) : Option ℕ := if digits.length ≤ 4 then number 16 digits else none

/-- Groups between colons; the last two may be an IPv4 address. -/
def groups (text : List Char) : Option (List ℕ) :=
  let pieces := text.splitOn ':'
  match ipv4 (pieces.getLastD []) with
  | some address => do return (← pieces.dropLast.mapM hexGroup) ++ [address / 65536, address % 65536]
  | none => pieces.mapM hexGroup

/-- The text before and after the first double colon. -/
def cutDoubleColon : List Char → Option (List Char × List Char)
  | [] => none
  | ':' :: ':' :: rest => some ([], rest)
  | c :: rest => (cutDoubleColon rest).map fun cut => (c :: cut.1, cut.2)

/-- The characters of an IPv6 address. -/
def isIpv6Char (c : Char) : Bool := isDigitOf 16 c || c = ':' || c = '.'

/-- An IPv6 address, as its eight groups. -/
def ipv6 (text : List Char) : Option (List ℕ) :=
  if text.all isIpv6Char ∧ ':' ∈ text then
    match cutDoubleColon text with
    | none => (groups text).filter fun gs => gs.length = 8
    | some (front, back) => do
      let front ← if front = [] then some [] else (front.splitOn ':').mapM hexGroup
      let back ← if back = [] then some [] else groups back
      if front.length + back.length ≤ 7 then
        return front ++ List.replicate (8 - (front.length + back.length)) 0 ++ back
      else
        none
  else
    none

theorem isIpv6Char_of_ipv6 {text : List Char} {groups : List ℕ} (h : ipv6 text = some groups) :
    ∀ c ∈ text, isIpv6Char c = true := by
  rw [ipv6] at h
  split_ifs at h with hchars
  exact List.all_eq_true.mp hchars.1

theorem colon_mem_of_ipv6 {text : List Char} {groups : List ℕ} (h : ipv6 text = some groups) :
    ':' ∈ text := by
  rw [ipv6] at h
  split_ifs at h with hchars
  exact hchars.2

/-! ## Hosts -/

/-- A host. Names are in lower case: case makes no difference to them. -/
inductive Host
  | name (name : List Char)
  | ipv4 (address : ℕ)
  | ipv6 (groups : List ℕ)
deriving DecidableEq, Repr

/-- The parts of a host between dots, without an empty one at the end. -/
def dottedParts (text : List Char) : List (List Char) :=
  let parts := text.splitOn '.'
  if parts.getLastD [] = [] ∧ parts.length ≠ 1 then parts.dropLast else parts

/-- An IPv6 address in brackets. -/
def bracketed : List Char → Option (List ℕ)
  | '[' :: rest => if rest.getLast? = some ']' then ipv6 rest.dropLast else none
  | _ => none

/-! ## Cutting -/

/-- The text before and after the last occurrence of a character. -/
def cutLast (c : Char) (text : List Char) : Option (List Char × List Char) :=
  if c ∈ text then
    some ((text.reverse.dropWhile (· ≠ c)).tail.reverse, (text.reverse.takeWhile (· ≠ c)).reverse)
  else
    none

theorem cutLast_append {back : List Char} (front : List Char) (hback : c ∉ back) :
    cutLast c (front ++ c :: back) = some (front, back) := by
  have hpos : ∀ x ∈ back.reverse, (decide (x ≠ c)) = true := by
    intro x hx
    simp only [decide_eq_true_eq]
    rintro rfl
    exact hback (List.mem_reverse.mp hx)
  have hrev : (front ++ c :: back).reverse = back.reverse ++ c :: front.reverse := by simp
  rw [cutLast, if_pos (by simp), hrev, List.dropWhile_append_of_pos hpos,
    List.takeWhile_append_of_pos hpos]
  simp

theorem cutLast_of_notMem {text : List Char} (h : c ∉ text) : cutLast c text = none :=
  if_neg h

/-- The host of an authority and the text behind the colon after it, if there is one. Colons in brackets
are part of the host. -/
def cutPort : Bool → List Char → List Char × Option (List Char)
  | _, [] => ([], none)
  | inside, c :: rest =>
    if c = ':' ∧ inside = false then ([], some rest)
    else
      let cut := cutPort (if c = '[' then true else if c = ']' then false else inside) rest
      (c :: cut.1, cut.2)

/-- A text without brackets, and without colons unless it stands in brackets, is cut nowhere. -/
theorem cutPort_append {inside : Bool} {text : List Char} (rest : List Char)
    (h : ∀ c ∈ text, c ≠ '[' ∧ c ≠ ']' ∧ (c = ':' → inside = true)) :
    cutPort inside (text ++ rest) = (text ++ (cutPort inside rest).1, (cutPort inside rest).2) := by
  induction text with
  | nil => rfl
  | cons c cs ih =>
    obtain ⟨hopen, hclose, hcolon⟩ := h c (by simp)
    have hgo : ¬ (c = ':' ∧ inside = false) := by
      rintro ⟨hc, hinside⟩
      rw [hcolon hc] at hinside
      cases hinside
    rw [List.cons_append, cutPort, if_neg hgo, if_neg hopen, if_neg hclose,
      ih fun x hx => h x (by simp [hx])]
    rfl

/-! ## The characters of hosts -/

theorem ne_of_class {p : Char → Bool} {c x : Char} (hc : p c = true) (hx : p x = false) : c ≠ x := by
  rintro rfl
  rw [hx] at hc
  cases hc

theorem notMem_of_class {p : Char → Bool} {others : List Char} (hc : p c = true)
    (h : others.any p = false) : c ∉ others :=
  fun hmem => absurd (List.any_eq_true.mpr ⟨c, hmem, hc⟩) (by simp [h])

theorem mem_intercalate {sep c : Char} {parts : List (List Char)} (h : c ∈ [sep].intercalate parts) :
    c = sep ∨ ∃ part ∈ parts, c ∈ part := by
  induction parts with
  | nil => cases h
  | cons part rest ih =>
    cases rest with
    | nil => exact .inr ⟨part, by simp, by simpa [List.intercalate] using h⟩
    | cons next rest =>
      have hsplit : c ∈ part ∨ c = sep ∨ c ∈ [sep].intercalate (next :: rest) := by
        simpa [List.intercalate] using h
      rcases hsplit with hpart | hsep | hrest
      · exact .inr ⟨part, by simp, hpart⟩
      · exact .inl hsep
      · refine (ih hrest).imp_right ?_
        rintro ⟨p, hp, hc⟩
        exact ⟨p, List.mem_cons_of_mem _ hp, hc⟩

/-- Characters no host of a URL has. -/
def isForbidden (c : Char) : Bool :=
  c.toNat ≤ 0x20 || 0x7F ≤ c.toNat ||
    c ∈ ['#', '%', '/', ':', '<', '>', '?', '@', '[', '\\', ']', '^', '|']

/-- The characters of names and of IPv4 addresses. -/
def isHostChar (c : Char) : Bool := !isForbidden c

theorem isHostChar_of_isDigitOf_ten (h : isDigitOf 10 c = true) : isHostChar c = true := by
  have hrange : 48 ≤ c.toNat ∧ c.toNat ≤ 57 := le_of_isDigitOf_ten h
  have hmem : c ∉ ['#', '%', '/', ':', '<', '>', '?', '@', '[', '\\', ']', '^', '|'] :=
    notMem_of_class h (by decide)
  rw [isHostChar, isForbidden, decide_eq_false (by omega), decide_eq_false (by omega),
    decide_eq_false hmem]
  rfl

variable {address : ℕ}

/-- An IPv4 address is four numbers between dots. -/
theorem ipv4_eq_some {text : List Char} (h : ipv4 text = some address) :
    ∃ p q r t a b c d, text.splitOn '.' = [p, q, r, t] ∧
      octet p = some a ∧ octet q = some b ∧ octet r = some c ∧ octet t = some d ∧
      address = quad a b c d := by
  rw [ipv4] at h
  split at h
  next p q r t hparts =>
    simp only [Option.pure_def, Option.bind_eq_bind, Option.bind_eq_some_iff, Option.some.injEq] at h
    obtain ⟨a, ha, b, hb, c, hc, d, hd, rfl⟩ := h
    exact ⟨p, q, r, t, a, b, c, d, hparts, ha, hb, hc, hd, rfl⟩
  next => cases h

theorem number_of_octet {n : ℕ} (h : octet digits = some n) :
    number 10 digits = some n ∧ n ≤ 255 := by
  rw [octet] at h
  split_ifs at h
  obtain ⟨hnumber, hn⟩ := Option.filter_eq_some_iff.mp h
  exact ⟨hnumber, of_decide_eq_true hn⟩

theorem isHostChar_of_ipv4 {text : List Char} (h : ipv4 text = some address) :
    ∀ c ∈ text, isHostChar c = true := by
  obtain ⟨p, q, r, t, a, b, c, d, hparts, hp, hq, hr, ht, -⟩ := ipv4_eq_some h
  intro x hx
  have hpieces : x ∈ ['.'].intercalate (text.splitOn '.') := by rwa [List.intercalate_splitOn]
  rcases mem_intercalate hpieces with rfl | ⟨part, hpart, hx⟩
  · decide
  have hoctet : ∃ n, octet part = some n := by
    simp only [hparts, List.mem_cons, List.not_mem_nil, or_false] at hpart
    rcases hpart with rfl | rfl | rfl | rfl
    exacts [⟨a, hp⟩, ⟨b, hq⟩, ⟨c, hr⟩, ⟨d, ht⟩]
  obtain ⟨n, hn⟩ := hoctet
  exact isHostChar_of_isDigitOf_ten ((number_eq_some (number_of_octet hn).1).2 x hx)

theorem dottedParts_of_ipv4 {text p q r t : List Char} (hparts : text.splitOn '.' = [p, q, r, t])
    (ht : t ≠ []) : dottedParts text = [p, q, r, t] := by
  rw [dottedParts, hparts]
  exact if_neg fun h => ht h.1

/-! ## Origins -/

/-- A number of an IPv4 address in a URL: hexadecimal after `0x`, octal after `0`, or decimal. -/
def ipv4Number : List Char → Option ℕ
  | '0' :: x :: digits =>
    if x = 'x' ∨ x = 'X' then (if digits = [] then some 0 else number 16 digits) else number 8 (x :: digits)
  | digits => number 10 digits

/-- The last part of a host is a number, so that the host must be an IPv4 address. -/
def endsInNumber (text : List Char) : Bool :=
  let last := (dottedParts text).getLastD []
  last ≠ [] && (last.all (isDigitOf 10) || (ipv4Number last).isSome)

/-- An IPv4 address in a URL: up to four numbers, the last one for all that is missing. -/
def urlIpv4 (text : List Char) : Option ℕ := do
  let numbers ← (dottedParts text).mapM ipv4Number
  let front := numbers.dropLast
  let last := numbers.getLastD 0
  if front.length ≤ 3 ∧ front.all (· ≤ 255) ∧ last < 256 ^ (4 - front.length) then
    return front.foldl (fun n x => n * 256 + x) 0 * 256 ^ (4 - front.length) + last
  else
    none

/-- The numbers of dotted decimal notation, which have no leading zeros, are decimal in URLs as well. -/
theorem ipv4Number_of_octet {n : ℕ} (h : octet digits = some n) : ipv4Number digits = some n := by
  have hnumber := (number_of_octet h).1
  rw [octet] at h
  split_ifs at h with hzero
  rw [ipv4Number.eq_def]
  split
  next x rest =>
    exact absurd ⟨by simp, rfl⟩ hzero
  next => exact hnumber

theorem endsInNumber_of_ipv4 {text : List Char} (h : ipv4 text = some address) :
    endsInNumber text = true := by
  obtain ⟨p, q, r, t, a, b, c, d, hparts, -, -, -, ht, -⟩ := ipv4_eq_some h
  obtain ⟨hne, hdigits⟩ := number_eq_some (number_of_octet ht).1
  rw [endsInNumber, dottedParts_of_ipv4 hparts hne]
  simp [hne, List.all_eq_true.mpr hdigits]

/-- **Dotted decimal notation means in a URL what it means elsewhere.** -/
theorem urlIpv4_of_ipv4 {text : List Char} (h : ipv4 text = some address) :
    urlIpv4 text = some address := by
  obtain ⟨p, q, r, t, a, b, c, d, hparts, hp, hq, hr, ht, rfl⟩ := ipv4_eq_some h
  have ha := (number_of_octet hp).2
  have hb := (number_of_octet hq).2
  have hc := (number_of_octet hr).2
  have hd := (number_of_octet ht).2
  have hnumbers : (dottedParts text).mapM ipv4Number = some [a, b, c, d] := by
    rw [dottedParts_of_ipv4 hparts (number_eq_some (number_of_octet ht).1).1]
    simp [ipv4Number_of_octet, hp, hq, hr, ht]
  rw [urlIpv4, hnumbers]
  simp [quad, ha, hb, hc, Nat.lt_succ_of_le hd]

/-- The host of a URL. -/
def urlHost (text : List Char) : Option Host :=
  if text.head? = some '[' then (bracketed text).map .ipv6
  else if text = [] ∨ text.any isForbidden then none
  else if endsInNumber text then (urlIpv4 text).map .ipv4
  else some (.name (text.map Char.toLower))

theorem urlHost_of_isHostChar {text : List Char} (h : ∀ c ∈ text, isHostChar c = true) (hne : text ≠ []) :
    urlHost text =
      if endsInNumber text then (urlIpv4 text).map .ipv4 else some (.name (text.map Char.toLower)) := by
  have hopen : text.head? ≠ some '[' := by
    intro hhead
    exact ne_of_class (h _ (List.mem_of_mem_head? hhead)) (by decide : isHostChar '[' = false) rfl
  have hallowed : ¬ (text = [] ∨ text.any isForbidden = true) := by
    rintro (hnil | hany)
    · exact hne hnil
    · obtain ⟨c, hc, hforbidden⟩ := List.any_eq_true.mp hany
      simpa [isHostChar, hforbidden] using h c hc
  rw [urlHost, if_neg hopen, if_neg hallowed]

theorem urlHost_bracketed (text : List Char) :
    urlHost ('[' :: (text ++ [']'])) = (ipv6 text).map .ipv6 := by
  rw [urlHost, if_pos (by simp), bracketed, if_pos (by simp), List.dropLast_concat]

/-- Where a connection goes: the host and the port, and the host that TLS is asked to check, if TLS is
used. -/
structure Endpoint where
  host : Host
  port : ℕ
  tls : Option Host
deriving DecidableEq, Repr

/-- What follows a given beginning. -/
def after (lead text : List Char) : Option (List Char) :=
  if lead.isPrefixOf text then some (text.drop lead.length) else none

/-- The endpoint of a host and an optional port. A port that is absent or empty is the scheme's own. -/
def hostPortEndpoint (secure : Bool) (text : List Char) : Option Endpoint := do
  let host ← urlHost (cutPort false text).1
  let port ←
    match (cutPort false text).2 with
    | none | some [] => some (if secure then 443 else 80)
    | some digits => port digits
  return ⟨host, port, if secure then some host else none⟩

/-- The characters that end an authority. -/
def endsAuthority (c : Char) : Bool := c ∈ ['/', '?', '#', '\\']

/-- The endpoint of what follows the scheme of a URL. -/
def authorityEndpoint (secure : Bool) (rest : List Char) : Option Endpoint :=
  let authority := rest.takeWhile (!endsAuthority ·)
  hostPortEndpoint secure ((cutLast '@' authority).elim authority (·.2))

/-- **The endpoint of an `http` or `https` URL**, by the URL standard. -/
def urlEndpoint (url : List Char) : Option Endpoint :=
  match after "https://".toList url with
  | some rest => authorityEndpoint true rest
  | none => (after "http://".toList url).bind (authorityEndpoint false)

/-- The characters of a host and a port. None of them ends an authority or is an at sign. -/
def isAuthorityChar (c : Char) : Bool := isHostChar c || isIpv6Char c || c ∈ ['[', ']']

theorem endsAuthority_of_isAuthorityChar (h : isAuthorityChar c = true) : endsAuthority c = false :=
  decide_eq_false (notMem_of_class h (by decide))

theorem authorityEndpoint_eq_hostPortEndpoint {secure : Bool} {rest : List Char}
    (h : ∀ c ∈ rest, isAuthorityChar c = true) :
    authorityEndpoint secure rest = hostPortEndpoint secure rest := by
  have hwhole : rest.takeWhile (!endsAuthority ·) = rest :=
    List.takeWhile_eq_self_iff.mpr fun c hc => by simp [endsAuthority_of_isAuthorityChar (h c hc)]
  have hat : '@' ∉ rest := fun hmem => absurd (h '@' hmem) (by decide)
  rw [authorityEndpoint, hwhole, cutLast_of_notMem hat]
  rfl

/-! ## Hosts and ports as written -/

/-- A host as it is written in a URL: a name, which does not end in a number, an IPv4 address in dotted
decimal notation, or an IPv6 address. -/
inductive HostText
  | name (text : List Char) (isName : text ≠ [] ∧ text.all isHostChar = true)
    (notNumber : endsInNumber text = false)
  | ipv4 (text : List Char) (address : ℕ) (isAddress : ipv4 text = some address)
  | ipv6 (text : List Char) (groups : List ℕ) (isAddress : ipv6 text = some groups)

namespace HostText

/-- IPv6 addresses stand in brackets. -/
def text : HostText → List Char
  | name text _ _ => text
  | ipv4 text _ _ => text
  | ipv6 text _ _ => '[' :: (text ++ [']'])

/-- The host that is meant. -/
def host : HostText → Host
  | name text _ _ => .name (text.map Char.toLower)
  | ipv4 _ address _ => .ipv4 address
  | ipv6 _ groups _ => .ipv6 groups

def isIpv6 : HostText → Bool
  | ipv6 _ _ _ => true
  | _ => false

theorem isHostChar_text {host : HostText} (h : host.isIpv6 = false) :
    ∀ c ∈ host.text, isHostChar c = true := by
  cases host with
  | name text isName _ => exact List.all_eq_true.mp isName.2
  | ipv4 text address isAddress => exact isHostChar_of_ipv4 isAddress
  | ipv6 _ _ _ => cases h

theorem text_ne_nil (host : HostText) : host.text ≠ [] := by
  cases host with
  | name text isName _ => exact isName.1
  | ipv4 text address isAddress =>
    rintro rfl
    cases isAddress
  | ipv6 _ _ _ => exact List.cons_ne_nil _ _

theorem urlHost_text (host : HostText) : urlHost host.text = some host.host := by
  cases host with
  | name t isName notNumber =>
    simp only [text, host]
    rw [urlHost_of_isHostChar (List.all_eq_true.mp isName.2) isName.1, notNumber]
    rfl
  | ipv4 t address isAddress =>
    have hne := text_ne_nil (.ipv4 t address isAddress)
    simp only [text, host] at hne ⊢
    rw [urlHost_of_isHostChar (isHostChar_of_ipv4 isAddress) hne, endsInNumber_of_ipv4 isAddress,
      urlIpv4_of_ipv4 isAddress]
    rfl
  | ipv6 t groups isAddress =>
    simp only [text, host, urlHost_bracketed, isAddress]
    rfl

/-- A host is cut nowhere: the colons of IPv6 addresses stand in brackets. -/
theorem cutPort_text (host : HostText) (rest : List Char) :
    cutPort false (host.text ++ rest) = (host.text ++ (cutPort false rest).1, (cutPort false rest).2) := by
  by_cases h6 : host.isIpv6 = true
  · cases host with
    | name _ _ _ => cases h6
    | ipv4 _ _ _ => cases h6
    | ipv6 t groups isAddress =>
      have hinside : cutPort true (t ++ ']' :: rest) =
          (t ++ ']' :: (cutPort false rest).1, (cutPort false rest).2) :=
        cutPort_append _ fun c hc =>
          have hclass := isIpv6Char_of_ipv6 isAddress c hc
          ⟨ne_of_class hclass (by decide), ne_of_class hclass (by decide), fun _ => rfl⟩
      have htext : text (.ipv6 t groups isAddress) ++ rest = '[' :: (t ++ ']' :: rest) := by simp [text]
      rw [htext, cutPort, if_neg (by decide), if_pos rfl, hinside]
      simp [text]
  · exact cutPort_append rest fun c hc =>
      have hclass := isHostChar_text (eq_false_of_ne_true h6) c hc
      ⟨ne_of_class hclass (by decide), ne_of_class hclass (by decide),
        fun hcolon => absurd hcolon (ne_of_class hclass (by decide))⟩

theorem isAuthorityChar_text (host : HostText) : ∀ c ∈ host.text, isAuthorityChar c = true := by
  by_cases h6 : host.isIpv6 = true
  · cases host with
    | name _ _ _ => cases h6
    | ipv4 _ _ _ => cases h6
    | ipv6 t groups isAddress =>
      intro c hc
      simp only [text, List.mem_cons, List.mem_append, List.not_mem_nil, or_false] at hc
      rcases hc with rfl | hc | rfl
      · rfl
      · simp [isAuthorityChar, isIpv6Char_of_ipv6 isAddress c hc]
      · rfl
  · intro c hc
    simp [isAuthorityChar, isHostChar_text (eq_false_of_ne_true h6) c hc]

end HostText

/-- A port as it is written in a URL. -/
structure PortText where
  digits : List Char
  value : ℕ
  isPort : port digits = some value

theorem PortText.isHostChar_digits (port : PortText) : ∀ c ∈ port.digits, isHostChar c = true :=
  fun c hc => isHostChar_of_isDigitOf_ten ((number_eq_some (number_of_port port.isPort)).2 c hc)

theorem PortText.digits_ne_nil (port : PortText) : port.digits ≠ [] :=
  (number_eq_some (number_of_port port.isPort)).1

/-- A host and an optional port as they are written in a URL. -/
structure AuthorityText where
  host : HostText
  port : Option PortText

namespace AuthorityText

def text (authority : AuthorityText) : List Char :=
  authority.host.text ++ authority.port.elim [] fun port => ':' :: port.digits

/-- The endpoint that is meant. A port that is not given is the scheme's own. -/
def endpoint (secure : Bool) (authority : AuthorityText) : Endpoint where
  host := authority.host.host
  port := authority.port.elim (if secure then 443 else 80) PortText.value
  tls := if secure then some authority.host.host else none

theorem isAuthorityChar_text (authority : AuthorityText) :
    ∀ c ∈ authority.text, isAuthorityChar c = true := by
  intro c hc
  rcases List.mem_append.mp hc with hhost | hport
  · exact authority.host.isAuthorityChar_text c hhost
  · cases hgiven : authority.port with
    | none =>
      rw [hgiven] at hport
      cases hport
    | some port =>
      rw [hgiven] at hport
      rcases List.mem_cons.mp hport with rfl | hdigit
      · rfl
      · simp [isAuthorityChar, port.isHostChar_digits c hdigit]

/-- **What the URL standard reads from a host and a port as written is what they mean.** -/
theorem authorityEndpoint_text (secure : Bool) (authority : AuthorityText) :
    authorityEndpoint secure authority.text = some (authority.endpoint secure) := by
  rw [authorityEndpoint_eq_hostPortEndpoint authority.isAuthorityChar_text, hostPortEndpoint, text,
    HostText.cutPort_text]
  obtain ⟨host, port⟩ := authority
  cases port with
  | none =>
    simp [cutPort, host.urlHost_text, endpoint]
  | some port =>
    obtain ⟨c, cs, hdigits⟩ := List.exists_cons_of_ne_nil port.digits_ne_nil
    have hport : Internet.port (c :: cs) = some port.value := hdigits ▸ port.isPort
    simp [cutPort, host.urlHost_text, endpoint, hdigits, hport]

end AuthorityText

end Foundation.Internet
