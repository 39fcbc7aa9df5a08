import Mathlib.Data.List.DropRight
import Mathlib.Data.List.Infix
import Lupine.Foundation.Cut

/-!
# Reading a URL

The two Python programs take a URL apart with `urllib.parse`: the scheme, the network location up to
the first of `/`, `?` and `#`, and the path, the query and the fragment behind it. The location
holds the host name and the port, a literal address in brackets, behind the user's name and an `@`.

What comes from the tables of Unicode and from `ipaddress` is a parameter. Of the lower case one
fact is used: it brings no mark into a text that a URL is cut at, nor a character such as `℀` that
stands for one.

## What is used of it

Two directions are needed: what the parts of a text are when its marks stand where they should, and
what is known of a text whose parts are given. The first is a computation along the text. The second
goes by the characters: a part is a sublist of the text, so a mark in it was in the text.
-/

namespace Lupine

open Foundation

/-! ## Characters

The classes of characters are those of the source of `urllib.parse`, with the class that all others
are in. -/

/-- `str.isspace`, which also says what `str.strip` takes away. -/
def isPySpace (c : Char) : Bool :=
  (9 ≤ c.toNat && c.toNat ≤ 13) || (28 ≤ c.toNat && c.toNat ≤ 32) || c.toNat = 0x85 ||
    c.toNat = 0xa0 || c.toNat = 0x1680 || (0x2000 ≤ c.toNat && c.toNat ≤ 0x200a) ||
    c.toNat = 0x2028 || c.toNat = 0x2029 || c.toNat = 0x202f || c.toNat = 0x205f ||
    c.toNat = 0x3000

/-- `_WHATWG_C0_CONTROL_OR_SPACE`. -/
def isC0OrSpace (c : Char) : Bool := c.toNat ≤ 32

/-- `_UNSAFE_URL_BYTES_TO_REMOVE`. -/
def isUnsafe (c : Char) : Bool := c = '\t' || c = '\r' || c = '\n'

/-- `scheme_chars`. -/
def isSchemeChar (c : Char) : Bool := c.isAlphanum || c = '+' || c = '-' || c = '.'

def isNetlocEnd (c : Char) : Bool := c = '/' || c = '?' || c = '#'

/-- A character other than `/?#@:` whose NFKC form holds one of these. -/
def isExpanding (c : Char) : Bool :=
  c.toNat ∈ [0x2047, 0x2048, 0x2049, 0x2100, 0x2101, 0x2105, 0x2106, 0x2a74, 0xfe13, 0xfe16, 0xfe55,
    0xfe56, 0xfe5f, 0xfe6b, 0xff03, 0xff0f, 0xff1a, 0xff1f, 0xff20]

/-- A mark that an address or a list of them is cut at, or what `urlsplit` drops or refuses. -/
def isMark (c : Char) : Bool :=
  c = ':' || c = ',' || c = '[' || c = ']' || c = '@' || isNetlocEnd c || isUnsafe c ||
    isExpanding c

/-- `str.strip`. -/
def strip (text : List Char) : List Char := (text.dropWhile isPySpace).rdropWhile isPySpace

/-- `str` of an `int`. -/
def decimal : ℤ → List Char
  | .ofNat n => Nat.toDigits 10 n
  | .negSucc n => '-' :: Nat.toDigits 10 (n + 1)

/-- What Python reads out of tables: the case and the digits of Unicode and the addresses that may
stand in brackets. -/
structure PythonText where
  /-- `str.lower`. -/
  lower : List Char → List Char
  /-- `str.isdigit`. -/
  isDigit : List Char → Bool
  /-- `int` of a text of digits. A digit need not have a value: superscripts have none. -/
  int : List Char → Option ℕ
  /-- Whether `_check_bracketed_host` lets a text pass. -/
  checkBracketedHost : List Char → Bool
  /-- No mark comes of another character when the case is lowered. -/
  lower_mark : ∀ text, ∀ c ∈ lower text, isMark c = true → c ∈ text

/-! ## The parts of a URL

The functions follow those of `urllib.parse`. An error is no result. -/

structure SplitResult where
  scheme : List Char
  netloc : List Char
  path : List Char
  query : List Char
  fragment : List Char
  deriving DecidableEq

/-- The scheme in lower case, and what follows its colon. -/
def splitScheme (url : List Char) : List Char × List Char :=
  match cutFirst ':' url with
  | (a :: front, some rest) =>
    if a.isAlpha && (a :: front).all isSchemeChar then ((a :: front).map Char.toLower, rest)
    else ([], url)
  | _ => ([], url)

def splitNetloc (url : List Char) : List Char × List Char :=
  if "//".toList <+: url then
    ((url.drop 2).takeWhile (!isNetlocEnd ·), (url.drop 2).dropWhile (!isNetlocEnd ·))
  else ([], url)

/-- `_hostinfo`: the host name and the port as they are written, each empty if it is not. -/
def hostinfo (netloc : List Char) : List Char × List Char :=
  let info := (cutLast '@' netloc).2
  match (cutFirst '[' info).2 with
  | some bracketed =>
    let (hostname, rest) := cutFirst ']' bracketed
    (hostname, (cutFirst ':' (rest.getD [])).2.getD [])
  | none =>
    let (hostname, port) := cutFirst ':' info
    (hostname, port.getD [])

/-- `username`, before a password. -/
def username (netloc : List Char) : Option (List Char) :=
  (cutLast '@' netloc).1.map fun userinfo ↦ (cutFirst ':' userinfo).1

/-- `password`. -/
def password (netloc : List Char) : Option (List Char) :=
  (cutLast '@' netloc).1.bind fun userinfo ↦ (cutFirst ':' userinfo).2

/-- `port`: nothing for a `ValueError`, and `some none` where no port is written. `int` refuses more
than 4300 digits. -/
def urlPort (netloc : List Char) : Option (Option ℕ) :=
  let port := (hostinfo netloc).2
  if port = [] then some none
  else if port.all Char.isDigit && port.length ≤ 4300 && Nat.ofDigitChars 10 port 0 ≤ 65535 then
    some (some (Nat.ofDigitChars 10 port 0))
  else none

namespace PythonText

variable (py : PythonText)

/-- What `urlsplit` and `_checknetloc` demand of a network location. -/
def checkNetloc (netloc : List Char) : Bool :=
  decide ('[' ∈ netloc ↔ ']' ∈ netloc) &&
    (decide ('[' ∉ netloc) ||
      py.checkBracketedHost (cutFirst ']' ((cutFirst '[' netloc).2.getD [])).1) &&
    netloc.all (!isExpanding ·)

/-- The rest of `urlsplit` once the scheme is known. -/
def splitRest (scheme url : List Char) : Option SplitResult :=
  let (netloc, url) := splitNetloc url
  if py.checkNetloc netloc = true then
    let (url, fragment) := cutFirst '#' url
    let (path, query) := cutFirst '?' url
    some ⟨scheme, netloc, path, query.getD [], fragment.getD []⟩
  else none

/-- `urlsplit`, with nothing for a `ValueError`. -/
def urlsplit (url : List Char) : Option SplitResult :=
  let url := (url.dropWhile isC0OrSpace).filter (!isUnsafe ·)
  py.splitRest (splitScheme url).1 (splitScheme url).2

/-- `hostname`: in lower case up to the zone of a scoped address. -/
def hostname (netloc : List Char) : Option (List Char) :=
  let hostname := (hostinfo netloc).1
  if hostname = [] then none
  else
    let (front, zone) := cutFirst '%' hostname
    some (py.lower front ++ (zone.map ('%' :: ·)).getD [])

end PythonText

def SplitResult.tail (parts : SplitResult) : List Char :=
  (if parts.path ≠ [] ∧ parts.path.head? ≠ some '/' then '/' :: parts.path else parts.path) ++
    (if parts.query = [] then [] else '?' :: parts.query) ++
    (if parts.fragment = [] then [] else '#' :: parts.fragment)

/-- `urlunsplit` of parts with a scheme and a network location. -/
def urlunsplit (parts : SplitResult) : List Char :=
  parts.scheme ++ "://".toList ++ parts.netloc ++ parts.tail

/-! ## Characters of the parts

A decimal number has no mark and no space in it. What begins a text, if it is not space, begins
what is left of it. -/

theorem isMark_eq_false {c : Char} (h : c.isDigit = true ∨ c = '-') : isMark c = false := by
  rcases h with h | rfl
  · refine eq_false_of_ne_true fun hmark ↦ ?_
    simp only [isMark, isNetlocEnd, isUnsafe, isExpanding, Bool.or_eq_true, decide_eq_true_eq]
      at hmark
    rcases hmark with ((((((rfl | rfl) | rfl) | rfl) | rfl) | (rfl | rfl) | rfl) |
      (rfl | rfl) | rfl) | hmark
    all_goals try exact absurd h (by decide)
    have hdigit : c.toNat ≤ 57 := by
      simp only [Char.isDigit, Bool.and_eq_true, decide_eq_true_eq] at h
      exact h.2
    simp only [List.mem_cons, List.not_mem_nil, or_false] at hmark
    omega
  · decide

theorem isDigit_of_mem_decimal {p : ℤ} {c : Char} (h : c ∈ decimal p) :
    c.isDigit = true ∨ c = '-' := by
  cases p with
  | ofNat n => exact Or.inl (Nat.isDigit_of_mem_toDigits (by decide) (by decide) h)
  | negSucc n =>
    refine (List.mem_cons.mp h).symm.imp_left fun h ↦ ?_
    exact Nat.isDigit_of_mem_toDigits (by decide) (by decide) h

theorem notMem_decimal {c : Char} (p : ℤ) (h : isMark c = true) : c ∉ decimal p := by
  intro hmem
  rw [isMark_eq_false (isDigit_of_mem_decimal hmem)] at h
  exact Bool.false_ne_true h

theorem decimal_ne_nil (p : ℤ) : decimal p ≠ [] := by
  cases p with
  | ofNat n => exact Nat.toDigits_ne_nil
  | negSucc n => exact List.cons_ne_nil _ _

theorem isPySpace_eq_false_of_mem_decimal {p : ℤ} {c : Char} (h : c ∈ decimal p) :
    isPySpace c = false := by
  rcases isDigit_of_mem_decimal h with h | rfl
  · have hdigit : 48 ≤ c.toNat ∧ c.toNat ≤ 57 := by
      simp only [Char.isDigit, Bool.and_eq_true, decide_eq_true_eq] at h
      exact h
    simp only [isPySpace, Bool.or_eq_false_iff, Bool.and_eq_false_iff, decide_eq_false_iff_not]
    omega
  · decide

theorem strip_eq_self {text : List Char} (hhead : ∀ c ∈ text.head?, isPySpace c = false)
    (hlast : ∀ c ∈ text.getLast?, isPySpace c = false) : strip text = text := by
  have hfront : text.dropWhile isPySpace = text := by
    refine List.dropWhile_eq_self_iff.mpr fun hl ↦ ?_
    rw [hhead text[0] (List.head?_eq_getElem? ▸ List.getElem?_eq_getElem hl)]
    exact Bool.false_ne_true
  rw [strip, hfront]
  refine List.rdropWhile_eq_self_iff.mpr fun hl ↦ ?_
  rw [hlast _ (List.getLast?_eq_some_getLast hl)]
  exact Bool.false_ne_true

theorem isPySpace_getLast_strip {text : List Char} {c : Char} (h : c ∈ (strip text).getLast?) :
    isPySpace c = false := by
  obtain ⟨hne, rfl⟩ := List.mem_getLast?_eq_getLast h
  exact eq_false_of_ne_true (List.rdropWhile_last_not isPySpace _ hne)

theorem head?_strip {text : List Char} {a : Char} (hhead : text.head? = some a)
    (ha : isPySpace a = false) : (strip text).head? = some a := by
  obtain ⟨rest, rfl⟩ := List.head?_eq_some_iff.mp hhead
  have hstrip : strip (a :: rest) = (a :: rest).rdropWhile isPySpace := by
    rw [strip, List.dropWhile_cons_of_neg (by rw [ha]; exact Bool.false_ne_true)]
  have hne : strip (a :: rest) ≠ [] := by
    intro hnil
    have hall := List.rdropWhile_eq_nil_iff.mp (hstrip ▸ hnil) a List.mem_cons_self
    exact Bool.false_ne_true (ha.symm.trans hall)
  obtain ⟨behind, hbehind⟩ := hstrip ▸ List.rdropWhile_prefix isPySpace (a :: rest)
  have hheads := congrArg List.head? hbehind
  rwa [List.head?_append_of_ne_nil _ hne] at hheads

theorem isPySpace_head_strip {text : List Char} {a : Char} (h : (strip text).head? = some a) :
    isPySpace a = false := by
  obtain ⟨rest, hrest⟩ := List.rdropWhile_prefix isPySpace (text.dropWhile isPySpace)
  have hhead : (text.dropWhile isPySpace).head? = some a := by
    rw [← hrest, List.head?_append, ← strip, h, Option.some_or]
  have hne : text.dropWhile isPySpace ≠ [] := by
    intro hnil
    rw [hnil] at hhead
    exact nomatch hhead
  have hnot := List.head_dropWhile_not isPySpace hne
  rwa [(List.head_eq_iff_head?_eq_some hne).mpr hhead] at hnot

/-! ## The parts of a network location

The bracket that opens a literal address is in neither part. -/

theorem hostinfo_sublist (netloc : List Char) :
    ((hostinfo netloc).1 ++ (hostinfo netloc).2).Sublist netloc := by
  refine List.Sublist.trans ?_ (cutLast_sublist '@' netloc)
  rw [hostinfo]
  rcases cutFirst_cases '[' (cutLast '@' netloc).2 with
    ⟨_, hcut⟩ | ⟨front, bracketed, hinfo, _, hcut⟩
  · simp only [hcut]
    exact cutFirst_sublist ':' _
  · simp only [hcut]
    have hport := (List.sublist_append_right _ _).trans (cutFirst_sublist ':'
      ((cutFirst ']' bracketed).2.getD []))
    rw [hinfo]
    exact ((hport.append_left _).trans (cutFirst_sublist ']' bracketed)).trans
      ((List.sublist_cons_self '[' bracketed).trans (List.sublist_append_right front _))

theorem at_notMem_hostinfo (netloc : List Char) :
    '@' ∉ (hostinfo netloc).1 ++ (hostinfo netloc).2 := by
  have hinfo : (cutLast '@' (cutLast '@' netloc).2).2 = (cutLast '@' netloc).2 := by
    rw [cutLast_of_notMem (notMem_cutLast '@' netloc)]
  have hsame : hostinfo (cutLast '@' netloc).2 = hostinfo netloc := by
    rw [hostinfo, hinfo, ← hostinfo]
  rw [← hsame]
  exact fun h ↦ notMem_cutLast '@' netloc ((hostinfo_sublist _).subset h)

/-- Without a user's name and without brackets the location is cut at its first colon. -/
theorem hostinfo_of_notMem {netloc : List Char} (hat : '@' ∉ netloc) (hbracket : '[' ∉ netloc) :
    hostinfo netloc = ((cutFirst ':' netloc).1, (cutFirst ':' netloc).2.getD []) := by
  simp only [hostinfo, cutLast_of_notMem hat, cutFirst_of_notMem hbracket]

theorem count_hostinfo_lt {netloc : List Char} (hat : '@' ∉ netloc) (hbracket : '[' ∈ netloc) :
    ((hostinfo netloc).1 ++ (hostinfo netloc).2).count '[' < netloc.count '[' := by
  obtain ⟨front, bracketed, rfl, hfront⟩ := List.eq_append_cons_of_mem hbracket
  have hport := (List.sublist_append_right _ _).trans (cutFirst_sublist ':'
    ((cutFirst ']' bracketed).2.getD []))
  have hle := ((hport.append_left _).trans (cutFirst_sublist ']' bracketed)).count_le '['
  simp only [hostinfo, cutLast_of_notMem hat, cutFirst_append bracketed hfront]
  rw [@List.count_append _ _ _ front, List.count_cons_self]
  omega

/-! ## Taking a URL apart and putting it together

What stands behind the location is set off from it by the mark that ends it. -/

/-- Whether `startswith(("http://", "https://"))` holds. -/
def isUrl (text : List Char) : Prop := "http://".toList <+: text ∨ "https://".toList <+: text

instance isUrl.decidable (text : List Char) : Decidable (isUrl text) :=
  inferInstanceAs (Decidable (_ ∨ _))

/-- The two schemes of a server. -/
def IsHttp (scheme : List Char) : Prop := scheme = "http".toList ∨ scheme = "https".toList

theorem isUrl_iff {text : List Char} :
    isUrl text ↔ ∃ scheme rest, IsHttp scheme ∧ text = scheme ++ "://".toList ++ rest := by
  constructor
  · rintro (⟨rest, rfl⟩ | ⟨rest, rfl⟩)
    · exact ⟨_, rest, Or.inl rfl, rfl⟩
    · exact ⟨_, rest, Or.inr rfl, rfl⟩
  · rintro ⟨scheme, rest, rfl | rfl, rfl⟩
    · exact Or.inl ⟨rest, rfl⟩
    · exact Or.inr ⟨rest, rfl⟩

theorem tail_eq_nil_iff {parts : SplitResult} :
    parts.tail = [] ↔ parts.path = [] ∧ parts.query = [] ∧ parts.fragment = [] := by
  rw [SplitResult.tail, List.append_eq_nil_iff, List.append_eq_nil_iff, and_assoc]
  split_ifs <;> simp_all

theorem mem_tail {parts : SplitResult} {c : Char} (h : c ∈ parts.tail) :
    isNetlocEnd c = true ∨ c ∈ parts.path ∨ c ∈ parts.query ∨ c ∈ parts.fragment := by
  have hcons {mark : Char} {part : List Char} (hmark : isNetlocEnd mark = true)
      (hc : c ∈ mark :: part) : isNetlocEnd c = true ∨ c ∈ part := by
    rcases List.mem_cons.mp hc with rfl | hc
    · exact Or.inl hmark
    · exact Or.inr hc
  rw [SplitResult.tail, List.mem_append, List.mem_append] at h
  rcases h with (hpath | hquery) | hfragment
  · split_ifs at hpath
    · exact (hcons rfl hpath).imp_right Or.inl
    · exact Or.inr (Or.inl hpath)
  · split_ifs at hquery
    · exact absurd hquery List.not_mem_nil
    · exact (hcons rfl hquery).imp_right (Or.inr ∘ Or.inl)
  · split_ifs at hfragment
    · exact absurd hfragment List.not_mem_nil
    · exact (hcons rfl hfragment).imp_right (Or.inr ∘ Or.inr)

theorem exists_isNetlocEnd_of_tail {parts : SplitResult} (h : parts.tail ≠ []) :
    ∃ c ∈ parts.tail, isNetlocEnd c = true := by
  by_contra hnone
  push Not at hnone
  refine h (tail_eq_nil_iff.mpr ⟨?_, ?_, ?_⟩)
  · by_contra hpath
    have hslash : '/' ∈ parts.tail := by
      rw [SplitResult.tail, List.append_assoc]
      refine List.mem_append_left _ ?_
      split_ifs with hslash
      · exact List.mem_cons_self
      · rw [not_and_or, not_not, not_not] at hslash
        exact List.mem_of_mem_head? (hslash.resolve_left hpath)
    exact hnone _ hslash rfl
  · by_contra hquery
    refine hnone '?' ?_ rfl
    rw [SplitResult.tail, if_neg hquery]
    simp
  · by_contra hfragment
    refine hnone '#' ?_ rfl
    rw [SplitResult.tail, if_neg hfragment]
    simp

namespace PythonText

variable {py : PythonText}

theorem urlsplit_url {scheme : List Char} (hscheme : IsHttp scheme) (rest : List Char) :
    py.urlsplit (scheme ++ "://".toList ++ rest) =
      py.splitRest scheme ("//".toList ++ rest.filter (!isUnsafe ·)) := by
  rcases hscheme with rfl | rfl <;> rfl

/-- What is known of the parts of a URL. -/
structure PartsOf (py : PythonText) (scheme rest : List Char) (parts : SplitResult) : Prop where
  scheme : parts.scheme = scheme
  netloc : py.checkNetloc parts.netloc = true
  netlocEnd : ∀ c ∈ parts.netloc, isNetlocEnd c = false
  netlocSubset : parts.netloc ⊆ rest
  tailSubset : ∀ c ∈ parts.tail, isNetlocEnd c = true ∨ c ∈ rest

theorem splitNetloc_cons (rest : List Char) : splitNetloc ("//".toList ++ rest) =
    (rest.takeWhile (!isNetlocEnd ·), rest.dropWhile (!isNetlocEnd ·)) :=
  if_pos ⟨rest, rfl⟩

theorem partsOf_splitRest {scheme rest : List Char} {parts : SplitResult}
    (h : py.splitRest scheme ("//".toList ++ rest) = some parts) :
    PartsOf py scheme rest parts := by
  rw [splitRest, splitNetloc_cons] at h
  obtain ⟨hcheck, h⟩ := Option.ite_none_right_eq_some.mp h
  obtain rfl := Option.some_inj.mp h
  have hbehind := (cutFirst_sublist '#' (rest.dropWhile (!isNetlocEnd ·))).trans
    (List.dropWhile_sublist _)
  have hpath := (cutFirst_sublist '?' (cutFirst '#' (rest.dropWhile (!isNetlocEnd ·))).1).trans
    ((List.sublist_append_left _ _).trans hbehind)
  refine ⟨rfl, hcheck, fun c hc ↦ ?_, (List.takeWhile_sublist _).subset, fun c hc ↦ ?_⟩
  · have htake := List.mem_takeWhile_imp hc
    exact Bool.not_eq_true' _ ▸ htake
  · rcases mem_tail hc with hend | hmem | hmem | hmem
    · exact Or.inl hend
    · exact Or.inr (hpath.subset (List.mem_append_left _ hmem))
    · exact Or.inr (hpath.subset (List.mem_append_right _ hmem))
    · exact Or.inr (hbehind.subset (List.mem_append_right _ hmem))

theorem splitScheme_subset (url : List Char) : (splitScheme url).2 ⊆ url := by
  have hcut := (cutFirst_sublist ':' url).subset
  rw [splitScheme]
  split
  · next a front rest hsplit =>
    rw [hsplit] at hcut
    split_ifs
    · exact fun c hc ↦ hcut (List.mem_append_right _ hc)
    · exact fun _ hc ↦ hc
  · exact fun _ hc ↦ hc

/-- A result with a location comes of a text with slashes before it, and holds no unsafe
character. -/
theorem partsOf_urlsplit {url : List Char} {parts : SplitResult}
    (h : py.urlsplit url = some parts) (hne : parts.netloc ≠ []) :
    ∃ rest, (∀ c ∈ rest, isUnsafe c = false) ∧ PartsOf py parts.scheme rest parts := by
  rw [urlsplit] at h
  have hsubset := splitScheme_subset ((url.dropWhile isC0OrSpace).filter (!isUnsafe ·))
  generalize splitScheme ((url.dropWhile isC0OrSpace).filter (!isUnsafe ·)) = split at h hsubset
  rcases Decidable.em ("//".toList <+: split.2) with ⟨rest, hrest⟩ | hslashes
  · rw [← hrest] at h
    have hparts := partsOf_splitRest h
    refine ⟨rest, fun c hc ↦ ?_, hparts.scheme ▸ hparts⟩
    have hmem := hsubset (hrest ▸ List.mem_append_right _ hc)
    exact (Bool.not_eq_true' _).mp (List.mem_filter.mp hmem).2
  · rw [splitRest, splitNetloc, if_neg hslashes] at h
    obtain ⟨_, h⟩ := Option.ite_none_right_eq_some.mp h
    exact absurd (Option.some_inj.mp h ▸ rfl) hne

theorem splitRest_netloc {netloc : List Char} (scheme : List Char)
    (h : ∀ c ∈ netloc, isNetlocEnd c = false) :
    py.splitRest scheme ("//".toList ++ netloc) =
      if py.checkNetloc netloc = true then some ⟨scheme, netloc, [], [], []⟩ else none := by
  have htake : netloc.takeWhile (!isNetlocEnd ·) = netloc :=
    List.takeWhile_eq_self_iff.mpr fun c hc ↦ by rw [h c hc]; rfl
  have hdrop : netloc.dropWhile (!isNetlocEnd ·) = [] :=
    List.dropWhile_eq_nil_iff.mpr fun c hc ↦ by rw [h c hc]; rfl
  rw [splitRest, splitNetloc_cons, htake, hdrop]
  rfl

end PythonText

end Lupine
