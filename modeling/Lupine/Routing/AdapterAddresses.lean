import Lupine.Routing.ServerAddresses

/-!
# The addresses of the Python adapter

The adapter brings each address that it is given into a normal form, `_normalize_server`: a host
gets a port, a literal address of IPv6 gets brackets, and the location of a URL is written anew
where a port is to be put into it. What a normal form says is read by the rules of Python itself.

Both clients read it so, and it is its own normal form, just if the host is one that they
understand, `PythonText.Understood`. An address in brackets they never read right, nor a URL with a
path or a user's name.

## Two kinds of text

A host without a scheme and a URL are treated apart, by Python and by both clients. For each kind
there is a condition on the text that was given, found by going through the marks that end or split
an address: a colon, brackets, and what ends a location. `normalizeServer_iff` puts the two
together.
-/

namespace Lupine

open Foundation

/-! ## The adapter

The functions follow `_normalize_server` line by line. Splitting a URL is Python's own. -/

/-- The brackets of a literal address that has none. -/
def addBrackets (host : List Char) : List Char :=
  if host.head? ≠ some '[' ∧ 1 < host.count ':' then '[' :: host ++ [']'] else host

/-- `has_port`. -/
def HasPort (host : List Char) : Prop :=
  if host.head? = some '[' then "]:".toList <:+: host else host.count ':' = 1

instance HasPort.decidable (host : List Char) : Decidable (HasPort host) :=
  inferInstanceAs (Decidable (ite _ _ _))

/-- The end of `_normalize_server`, for a host without a scheme. -/
def normalizeName (host : List Char) (port : Option ℤ) : List Char :=
  let host := addBrackets host
  match port with
  | some port =>
    (if HasPort host then (cutLast ':' host).1.getD [] else host) ++ ':' :: decimal port
  | none => if HasPort host then host else host ++ ':' :: decimal 14833

namespace PythonText

variable (py : PythonText)

/-- The host name of a location, in brackets if it needs them, with another port. -/
def withPort (netloc : List Char) (port : ℤ) : List Char :=
  let hostname := (py.hostname netloc).getD []
  (if ':' ∈ hostname ∧ hostname.head? ≠ some '[' then '[' :: hostname ++ [']'] else hostname) ++
    ':' :: decimal port

/-- The network location that `_normalize_server` puts into a URL. -/
def normalizeNetloc (parsed : SplitResult) : Option ℤ → Option (List Char)
  | some port => some (py.withPort parsed.netloc port)
  | none =>
    if parsed.scheme = "http".toList then
      (urlPort parsed.netloc).map fun port ↦
        if port = none then py.withPort parsed.netloc 14833 else parsed.netloc
    else some parsed.netloc

/-- `_normalize_server`, with nothing for an error. -/
def normalizeServer (host : List Char) (port : Option ℤ) : Option (List Char) :=
  let host := strip host
  if host = [] then none
  else if isUrl host then
    (py.urlsplit host).bind fun parsed ↦
      if parsed.netloc = [] then none
      else (py.normalizeNetloc parsed port).map fun netloc ↦ urlunsplit { parsed with netloc }
  else some (normalizeName host port)

/-- `_normalize_hosts`. A single host is a list of one. -/
def normalizeHosts (hosts : List (List Char)) (port : Option ℤ) : Option (List (List Char)) :=
  hosts.mapM (py.normalizeServer · port)

end PythonText

/-- A text in the environment or in an argument of another program. Neither can hold the null
character. -/
def handOn (text : List Char) : Option (List Char) := if '\x00' ∈ text then none else some text

/-- `_set_server_env`: the value of `LUPINE_SERVER`. -/
def setServerEnv (servers : List (List Char)) : Option (List Char) := handOn (joinServers servers)

/-! ## What an address says -/

def unbracket (host : List Char) : List Char :=
  if host.head? = some '[' ∧ host.getLast? = some ']' then host.tail.dropLast else host

/-- The server that an address of the adapter names, by the rules of Python. -/
def PythonText.addressed (py : PythonText) (address : List Char) : Option Endpoint :=
  if isUrl address then
    (py.urlsplit address).map fun parsed ↦
      let (host, port) := hostinfo parsed.netloc
      let tls := decide (parsed.scheme = "https".toList)
      ⟨host, if port = [] then defaultPort tls else port, tls⟩
  else
    match cutLast ':' address with
    | (some host, port) => some ⟨unbracket host, port, false⟩
    | (none, host) => some ⟨unbracket host, defaultPort false, false⟩

/-! ## A host without a scheme

A host without brackets is followed by a port in the normal form: the one that stands behind it, or
the one that was given. In brackets it is read wrong. -/

/-- What the clients understand of a host without a scheme: a name, and a port where none is
given along with it. -/
def NameUnderstood (host : List Char) (port : Option ℤ) : Prop :=
  host.head? ≠ some '[' ∧ host.count ':' ≤ 1 ∧ IsPlainName (cutFirst ':' host).1 ∧
    (port = none → ∀ text ∈ (cutFirst ':' host).2, IsPlainPort text)

theorem addBrackets_of_bracket {host : List Char} (h : host.head? = some '[') :
    addBrackets host = host :=
  if_neg fun hadd ↦ hadd.1 h

theorem normalizeName_none (host : List Char) : normalizeName host none =
    if HasPort (addBrackets host) then addBrackets host
    else addBrackets host ++ ':' :: decimal 14833 := rfl

instance NameUnderstood.decidable (host : List Char) (port : Option ℤ) :
    Decidable (NameUnderstood host port) :=
  inferInstanceAs (Decidable (_ ∧ _ ∧ _ ∧ (_ → _)))

theorem slashes_of_isUrl {name port : List Char} (hname : ':' ∉ name)
    (h : isUrl (name ++ ':' :: port)) : "//".toList <+: port := by
  obtain ⟨scheme, rest, hscheme, h⟩ := isUrl_iff.mp h
  have hcolon : ':' ∉ scheme := by
    rcases hscheme with rfl | rfl <;> decide
  have hsplit : name ++ ':' :: port = scheme ++ ':' :: ("//".toList ++ rest) := by
    rw [h, List.append_assoc]
    rfl
  exact ⟨rest, (append_colon_inj hname hcolon hsplit).2.symm⟩

theorem isPlainPort_decimal (port : ℤ) : IsPlainPort (decimal port) := by
  refine ⟨decimal_ne_nil port, notMem_decimal port rfl, ?_⟩
  rintro ⟨rest, h⟩
  exact notMem_decimal port (c := '/') rfl (h ▸ List.mem_cons_self)

theorem strip_append_decimal {host : List Char} {a : Char} {port : ℤ} (hhead : host.head? = some a)
    (ha : isPySpace a = false) :
    strip (host ++ ':' :: decimal port) = host ++ ':' :: decimal port := by
  refine strip_eq_self (fun c hc ↦ ?_) fun c hc ↦ ?_
  · rw [List.head?_append, hhead, Option.some_or, Option.mem_some_iff] at hc
    exact hc ▸ ha
  · have hlast : (host ++ ':' :: decimal port).getLast? = (decimal port).getLast? := by
      rw [List.getLast?_append_of_ne_nil _ (List.cons_ne_nil _ _),
        List.getLast?_cons_of_ne_nil (decimal_ne_nil port)]
    rw [hlast] at hc
    exact isPySpace_eq_false_of_mem_decimal (List.mem_of_mem_getLast? hc)

section Name

variable {py : PythonText}

theorem addressed_name {name port : List Char} (hurl : ¬isUrl (name ++ ':' :: port))
    (hhead : name.head? ≠ some '[') (hport : ':' ∉ port) :
    py.addressed (name ++ ':' :: port) = some ⟨name, port, false⟩ := by
  rw [PythonText.addressed, if_neg hurl, cutLast_append name hport]
  exact congrArg some (congrArg (Endpoint.mk · port false) (if_neg fun h ↦ hhead h.1))

theorem normalizeServer_name {name port : List Char} (hurl : ¬isUrl (name ++ ':' :: port))
    (hhead : name.head? ≠ some '[') (hname : ':' ∉ name) (hport : ':' ∉ port) (hne : name ≠ [])
    (hstrip : strip (name ++ ':' :: port) = name ++ ':' :: port) :
    py.normalizeServer (name ++ ':' :: port) none = some (name ++ ':' :: port) := by
  have haddress : name ++ ':' :: port ≠ [] := List.append_ne_nil_of_left_ne_nil hne _
  have hhead : (name ++ ':' :: port).head? ≠ some '[' := by
    rwa [List.head?_append_of_ne_nil name hne]
  have hcount : (name ++ ':' :: port).count ':' = 1 := by
    rw [List.count_append, List.count_cons_self, List.count_eq_zero.mpr hname,
      List.count_eq_zero.mpr hport]
  have hbrackets : addBrackets (name ++ ':' :: port) = name ++ ':' :: port :=
    if_neg fun h ↦ absurd h.2 (by omega)
  have hasPort : HasPort (name ++ ':' :: port) := by
    rw [HasPort, if_neg hhead]
    exact hcount
  rw [PythonText.normalizeServer, hstrip, if_neg haddress, if_neg hurl, normalizeName, hbrackets]
  exact congrArg some (if_pos hasPort)

theorem not_isUrl_of_bracket {address : List Char} (h : address.head? = some '[') :
    ¬isUrl address := by
  rintro (⟨rest, rfl⟩ | ⟨rest, rfl⟩) <;> exact absurd (Option.some_inj.mp h) (by decide)

theorem unbracket_eq_self {host : List Char} (hhead : host.head? = some '[')
    (h : unbracket host = host) : host.getLast? ≠ some ']' := by
  intro hlast
  rw [unbracket, if_pos ⟨hhead, hlast⟩] at h
  have hlength := congrArg List.length h
  rw [List.length_dropLast, List.length_tail] at hlength
  have hne : host ≠ [] := by
    rintro rfl
    exact nomatch hhead
  have hpos := List.length_pos_iff.mpr hne
  omega

/-- **Brackets.** An address in brackets is read wrong by both clients or is not in the normal
form. -/
theorem not_carriedOver_of_bracket {address : List Char} (hhead : address.head? = some '[')
    (hcolon : ':' ∈ address) (h : CarriedOver address (py.addressed address)) :
    py.normalizeServer address none ≠ some address := by
  obtain ⟨first, rest, rfl, hfirst⟩ := List.eq_append_cons_of_mem hcolon
  have hurl := not_isUrl_of_bracket hhead
  -- The clients cut at the first colon and Python at the last, so there is but one.
  have hread : first = unbracket first ∧ ':' ∉ rest := by
    rcases cutLast_cases ':' (first ++ ':' :: rest) with
      ⟨hnone, _⟩ | ⟨front, port, hsplit, hport, hcut⟩
    · exact absurd hcolon hnone
    · have hcuda := h.cuda
      rw [rpcOpenEndpoint_of_not_isUrl hurl, hostAndPort, cutFirst_append rest hfirst,
        PythonText.addressed, if_neg hurl, hcut, Option.some_inj] at hcuda
      have hhost : first = unbracket front := congrArg Endpoint.host hcuda
      have hsame : rest = port := congrArg Endpoint.port hcuda
      have hfront : first = front := by
        rw [hsame] at hsplit
        exact List.append_cancel_right hsplit
      exact ⟨hfront ▸ hhost, hsame ▸ hport⟩
  have hne : first ≠ [] := by
    rintro rfl
    exact absurd (Option.some_inj.mp hhead) (by decide)
  have hopen : first.head? = some '[' := by
    rwa [List.head?_append_of_ne_nil first hne] at hhead
  have hclose := unbracket_eq_self hopen hread.1.symm
  -- In the normal form the bracket would close before the colon, or no port would be added.
  intro hfixed
  have hstrip : (strip (first ++ ':' :: rest)).head? = some '[' := head?_strip hhead rfl
  rw [PythonText.normalizeServer, Option.ite_none_left_eq_some] at hfixed
  have hfixed := hfixed.2
  rw [if_neg (not_isUrl_of_bracket hstrip), Option.some_inj, normalizeName_none,
    addBrackets_of_bracket hstrip] at hfixed
  split_ifs at hfixed with hasPort
  · rw [hfixed, HasPort, if_pos hhead] at hasPort
    have hbracket := @colon_infix_iff [']'] [] first rest hfirst hread.2
    obtain ⟨⟨front, rfl⟩, _⟩ := hbracket.mp hasPort
    exact hclose (List.getLast?_concat)
  · have hsame := @strip_append_decimal _ _ 14833 hstrip (by decide)
    rw [hfixed] at hsame
    have hlength := congrArg List.length hfixed
    rw [hsame, List.length_append, List.length_cons] at hlength
    omega

theorem normal_name_iff {name port : List Char} (hurl : ¬isUrl (name ++ ':' :: port))
    (hhead : name.head? ≠ some '[') (hname : ':' ∉ name) (hport : ':' ∉ port)
    (hstrip : name ≠ [] → port ≠ [] → strip (name ++ ':' :: port) = name ++ ':' :: port) :
    CarriedOver (name ++ ':' :: port) (py.addressed (name ++ ':' :: port)) ∧
        py.normalizeServer (name ++ ':' :: port) none = some (name ++ ':' :: port) ↔
      IsPlainName name ∧ IsPlainPort port := by
  rw [addressed_name hurl hhead hport, carriedOver_name_iff hurl hname hport]
  refine and_iff_left_of_imp fun h ↦ ?_
  exact normalizeServer_name hurl hhead hname hport h.1.1 (hstrip h.1.1 h.2.1)

theorem colon_mem_of_hasPort {host : List Char} (h : HasPort host) : ':' ∈ host := by
  rw [HasPort] at h
  split_ifs at h
  · exact h.subset (by decide)
  · exact List.count_pos_iff.mp (by omega)

theorem normalizeName_bracket {host : List Char} (port : Option ℤ)
    (hhead : (addBrackets host).head? = some '[') :
    (normalizeName host port).head? = some '[' ∧ ':' ∈ normalizeName host port := by
  have happend (port : ℤ) {front : List Char} (h : front.head? = some '[') :
      (front ++ ':' :: decimal port).head? = some '[' ∧ ':' ∈ front ++ ':' :: decimal port :=
    ⟨by rw [List.head?_append, h, Option.some_or], by simp⟩
  rcases port with _ | port
  · rw [normalizeName_none]
    split_ifs with hasPort
    · exact ⟨hhead, colon_mem_of_hasPort hasPort⟩
    · exact happend 14833 hhead
  · refine happend port ?_
    split_ifs with hasPort
    · rcases cutLast_cases ':' (addBrackets host) with ⟨hnone, _⟩ | ⟨front, rest, hsplit, _, hcut⟩
      · exact absurd (colon_mem_of_hasPort hasPort) hnone
      · have hne : front ≠ [] := by
          rintro rfl
          rw [hsplit] at hhead
          exact absurd (Option.some_inj.mp hhead) (by decide)
        rw [hcut, Option.getD_some]
        rwa [hsplit, List.head?_append_of_ne_nil _ hne] at hhead
    · exact hhead

theorem not_isUrl_decimal {name : List Char} (port : ℤ) (hname : ':' ∉ name) :
    ¬isUrl (name ++ ':' :: decimal port) :=
  fun h ↦ (isPlainPort_decimal port).2.2 (slashes_of_isUrl hname h)

/-- A host without brackets, as it goes through `_normalize_server`. -/
structure PlainHost (host : List Char) : Prop where
  strip : strip host = host
  ne_nil : host ≠ []
  head : host.head? ≠ some '['
  count : host.count ':' ≤ 1

theorem PlainHost.addBrackets {host : List Char} (h : PlainHost host) : addBrackets host = host :=
  if_neg fun hadd ↦ absurd hadd.2 (Nat.not_lt.mpr h.count)

theorem PlainHost.hasPort_iff {host : List Char} (h : PlainHost host) :
    HasPort host ↔ host.count ':' = 1 := by
  rw [HasPort, if_neg h.head]

theorem PlainHost.exists_head {host : List Char} (h : PlainHost host) :
    ∃ a, host.head? = some a ∧ isPySpace a = false := by
  obtain ⟨a, hhead⟩ := Option.isSome_iff_exists.mp (List.isSome_head?.mpr h.ne_nil)
  exact ⟨a, hhead, isPySpace_head_strip (h.strip.symm ▸ hhead)⟩

theorem normalizeName_host_iff {host : List Char} (port : Option ℤ) (h : PlainHost host)
    (hcolon : ':' ∉ host) :
    CarriedOver (normalizeName host port) (py.addressed (normalizeName host port)) ∧
        py.normalizeServer (normalizeName host port) none = some (normalizeName host port) ↔
      NameUnderstood host port := by
  have hnot : ¬HasPort host := by
    rw [h.hasPort_iff, List.count_eq_zero.mpr hcolon]
    decide
  have haddress : normalizeName host port = host ++ ':' :: decimal (port.getD 14833) := by
    rcases port with _ | port
    · rw [normalizeName_none, h.addBrackets, if_neg hnot, Option.getD_none]
    · rw [normalizeName, h.addBrackets, Option.getD_some]
      exact congrArg (· ++ _) (if_neg hnot)
  obtain ⟨a, hhead, hspace⟩ := h.exists_head
  rw [haddress, normal_name_iff (not_isUrl_decimal _ hcolon) h.head hcolon (notMem_decimal _ rfl)
    fun _ _ ↦ strip_append_decimal hhead hspace, NameUnderstood, cutFirst_of_notMem hcolon]
  refine ⟨fun hplain ↦ ⟨h.head, h.count, hplain.1, fun _ _ h ↦ (nomatch h)⟩, fun h ↦ ?_⟩
  exact ⟨h.2.2.1, isPlainPort_decimal _⟩

theorem normalizeName_hostPort_iff {name text : List Char} (port : Option ℤ)
    (h : PlainHost (name ++ ':' :: text)) (hurl : ¬isUrl (name ++ ':' :: text))
    (hname : ':' ∉ name) :
    CarriedOver (normalizeName (name ++ ':' :: text) port)
          (py.addressed (normalizeName (name ++ ':' :: text) port)) ∧
        py.normalizeServer (normalizeName (name ++ ':' :: text) port) none =
          some (normalizeName (name ++ ':' :: text) port) ↔
      NameUnderstood (name ++ ':' :: text) port := by
  have hcount : text.count ':' = 0 := by
    have hle := h.count
    rw [List.count_append, List.count_cons_self] at hle
    omega
  have htext := List.count_eq_zero.mp hcount
  have hasPort : HasPort (name ++ ':' :: text) := by
    rw [h.hasPort_iff, List.count_append, List.count_cons_self, hcount,
      List.count_eq_zero.mpr hname]
  have hhead : name.head? ≠ some '[' := by
    rcases eq_or_ne name [] with rfl | hne
    · exact (nomatch ·)
    · exact List.head?_append_of_ne_nil name hne ▸ h.head
  rcases port with _ | port
  · rw [normalizeName_none, h.addBrackets, if_pos hasPort, normal_name_iff hurl hhead hname htext
      fun _ _ ↦ h.strip, NameUnderstood, cutFirst_append text hname]
    refine ⟨fun hplain ↦ ⟨h.head, h.count, hplain.1, fun _ port hport ↦ ?_⟩, fun h ↦ ?_⟩
    · exact Option.mem_some_iff.mp hport ▸ hplain.2
    · exact ⟨h.2.2.1, h.2.2.2 rfl _ rfl⟩
  · have haddress : normalizeName (name ++ ':' :: text) (some port) =
        name ++ ':' :: decimal port := by
      rw [normalizeName, h.addBrackets, cutLast_append name htext]
      exact congrArg (· ++ _) (if_pos hasPort)
    have hstrip (hne : name ≠ []) : strip (name ++ ':' :: decimal port) =
        name ++ ':' :: decimal port := by
      obtain ⟨a, ha, hspace⟩ := h.exists_head
      exact strip_append_decimal (List.head?_append_of_ne_nil name hne ▸ ha) hspace
    rw [haddress, normal_name_iff (not_isUrl_decimal port hname) hhead hname
      (notMem_decimal _ rfl) fun hne _ ↦ hstrip hne, NameUnderstood, cutFirst_append text hname]
    refine ⟨fun hplain ↦ ⟨h.head, h.count, hplain.1, fun h ↦ (nomatch h)⟩, fun h ↦ ?_⟩
    exact ⟨h.2.2.1, isPlainPort_decimal _⟩

/-- **A host without a scheme.** -/
theorem normalizeName_iff {host : List Char} (port : Option ℤ) (hstrip : strip host = host)
    (hne : host ≠ []) (hurl : ¬isUrl host) :
    CarriedOver (normalizeName host port) (py.addressed (normalizeName host port)) ∧
        py.normalizeServer (normalizeName host port) none = some (normalizeName host port) ↔
      NameUnderstood host port := by
  rcases Decidable.em ((addBrackets host).head? = some '[') with hbracket | hbracket
  · obtain ⟨hhead, hcolon⟩ := normalizeName_bracket port hbracket
    refine iff_of_false (fun h ↦ not_carriedOver_of_bracket hhead hcolon h.1 h.2) fun h ↦ ?_
    rw [addBrackets, if_neg fun hadd ↦ absurd hadd.2 (Nat.not_lt.mpr h.2.1)] at hbracket
    exact h.1 hbracket
  · have hhead : host.head? ≠ some '[' := fun hhead ↦
      hbracket ((addBrackets_of_bracket hhead).symm ▸ hhead)
    have hcount : host.count ':' ≤ 1 := by
      by_contra hcount
      rw [addBrackets, if_pos ⟨hhead, Nat.lt_of_not_le hcount⟩] at hbracket
      exact hbracket rfl
    have hplain : PlainHost host := ⟨hstrip, hne, hhead, hcount⟩
    rcases cutFirst_cases ':' host with ⟨hcolon, _⟩ | ⟨name, text, rfl, hname, _⟩
    · exact normalizeName_host_iff port hplain hcolon
    · exact normalizeName_hostPort_iff port hplain hurl hname

end Name

/-! ## A URL

A location that has no mark in it which Python and the clients treat differently is cut at the same
place by all of them. -/

section Url

variable {py : PythonText}

theorem isMark_of_isNetlocEnd {c : Char} (h : isNetlocEnd c = true) : isMark c = true := by
  simp [isMark, h]

theorem isMark_of_isUnsafe {c : Char} (h : isUnsafe c = true) : isMark c = true := by
  simp [isMark, h]

theorem isMark_of_isExpanding {c : Char} (h : isExpanding c = true) : isMark c = true := by
  simp [isMark, h]

theorem checkNetloc_iff {netloc : List Char} (hbracket : '[' ∉ netloc) :
    py.checkNetloc netloc = true ↔ ']' ∉ netloc ∧ ∀ c ∈ netloc, isExpanding c = false := by
  simp [PythonText.checkNetloc, hbracket]

theorem not_isExpanding {netloc : List Char} (h : py.checkNetloc netloc = true) :
    ∀ c ∈ netloc, isExpanding c = false := by
  simp only [PythonText.checkNetloc, Bool.and_eq_true, List.all_eq_true, Bool.not_eq_true'] at h
  exact h.2

/-- A location that Python and both clients cut at the same place. -/
structure CleanLocation (py : PythonText) (rest : List Char) : Prop where
  comma : ',' ∉ rest
  userinfo : '@' ∉ rest
  bracket : '[' ∉ rest
  netlocEnd : ∀ c ∈ rest, isNetlocEnd c = false
  check : py.checkNetloc rest = true
  host : (cutFirst ':' rest).1 ≠ []
  port : (cutFirst ':' rest).2 ≠ some []

theorem addressed_url {scheme rest : List Char} (hscheme : IsHttp scheme)
    (hremoved : ∀ c ∈ rest, isUnsafe c = false) :
    py.addressed (scheme ++ "://".toList ++ rest) =
      (py.splitRest scheme ("//".toList ++ rest)).map fun parsed ↦
        ⟨(hostinfo parsed.netloc).1, if (hostinfo parsed.netloc).2 = [] then
          defaultPort (decide (parsed.scheme = "https".toList)) else (hostinfo parsed.netloc).2,
          decide (parsed.scheme = "https".toList)⟩ := by
  have hfilter : rest.filter (!isUnsafe ·) = rest :=
    List.filter_eq_self.mpr fun c hc ↦ by rw [hremoved c hc]; rfl
  rw [PythonText.addressed, if_pos (isUrl_iff.mpr ⟨scheme, rest, hscheme, rfl⟩),
    PythonText.urlsplit_url hscheme, hfilter]

theorem hostAndPort_port_ne_nil_iff {tls : Bool} {rest : List Char} :
    (hostAndPort tls rest).port ≠ [] ↔ (cutFirst ':' rest).2 ≠ some [] := by
  have hdefault : defaultPort tls ≠ [] := by
    cases tls <;> decide
  rw [hostAndPort]
  rcases cutFirst ':' rest with ⟨_, _ | port⟩
  · exact iff_of_true hdefault (Option.some_ne_none _).symm
  · exact not_congr Option.some_inj.symm

/-- **A URL.** Both clients read it as it is meant just if nothing stands behind the location, and
the location is a host name with or without a port. -/
theorem carriedOver_url_iff {scheme rest : List Char} (hscheme : IsHttp scheme)
    (hremoved : ∀ c ∈ rest, isUnsafe c = false) :
    CarriedOver (scheme ++ "://".toList ++ rest) (py.addressed (scheme ++ "://".toList ++ rest)) ↔
      CleanLocation py rest := by
  have hmeant := @addressed_url py scheme rest hscheme hremoved
  have hcuda := rpcOpenEndpoint_url hscheme rest
  have hnvml := openConnectionEndpoint_url hscheme rest
  have hcomma : ',' ∉ scheme ++ "://".toList ++ rest ↔ ',' ∉ rest := by
    rcases hscheme with rfl | rfl <;> simp
  constructor
  · intro h
    have hread := h.cuda
    rw [hcuda, hmeant] at hread
    obtain ⟨parsed, hparsed, hread⟩ := Option.map_eq_some_iff.mp hread.symm
    have hparts := PythonText.partsOf_splitRest hparsed
    -- What the clients cut loses no mark, so the parts that Python finds hold them all.
    have hcount {c : Char} (hmark : isMark c = true) (hcolon : c ≠ ':') :
        rest.count c ≤ ((hostinfo parsed.netloc).1 ++ (hostinfo parsed.netloc).2).count c := by
      have hle := count_hostAndPort (decide (scheme = "https".toList)) rest hmark hcolon
      rw [← hread, List.count_append] at hle
      rw [← hle, List.count_append]
      refine Nat.add_le_add_left ?_ _
      split_ifs
      · rw [List.count_eq_zero.mpr (notMem_defaultPort _ hmark)]
        exact Nat.zero_le _
      · exact Nat.le_refl _
    have hsublist := hostinfo_sublist parsed.netloc
    have hend : ∀ c ∈ rest, isNetlocEnd c = false := by
      intro c hc
      refine eq_false_of_ne_true fun hend ↦ ?_
      have hcolon : c ≠ ':' := by
        rintro rfl
        exact Bool.false_ne_true hend
      have hpos := Nat.lt_of_lt_of_le (List.count_pos_iff.mpr hc)
        (hcount (isMark_of_isNetlocEnd hend) hcolon)
      have hmem := hsublist.subset (List.count_pos_iff.mp hpos)
      exact Bool.false_ne_true ((hparts.netlocEnd c hmem).symm.trans hend)
    rw [PythonText.splitRest_netloc scheme hend, Option.ite_none_right_eq_some] at hparsed
    obtain ⟨hcheck, rfl⟩ := hparsed.imp_right Option.some_inj.mp
    have hat : '@' ∉ rest := by
      refine fun hat ↦ at_notMem_hostinfo rest (List.count_pos_iff.mp ?_)
      exact Nat.lt_of_lt_of_le (List.count_pos_iff.mpr hat) (hcount rfl (by decide))
    have hbracket : '[' ∉ rest := fun hbracket ↦
      absurd (hcount rfl (by decide)) (Nat.not_le.mpr (count_hostinfo_lt hat hbracket))
    have husable := h.nvml
    rw [hnvml, ← h.cuda, hcuda, usable_eq_some_iff] at husable
    exact ⟨hcomma.mp h.comma, hat, hbracket, hend, hcheck, husable.1,
      hostAndPort_port_ne_nil_iff.mp husable.2.1⟩
  · intro h
    have hsaid : py.addressed (scheme ++ "://".toList ++ rest) =
        some (hostAndPort (decide (scheme = "https".toList)) rest) := by
      rw [hmeant, PythonText.splitRest_netloc scheme h.netlocEnd, if_pos h.check, Option.map_some,
        hostinfo_of_notMem h.userinfo h.bracket]
      have hport := h.port
      rw [hostAndPort]
      generalize cutFirst ':' rest = parts at hport ⊢
      rcases parts with ⟨host, _ | port⟩
      · rfl
      · exact congrArg some (congrArg (Endpoint.mk _ · _)
          (if_neg fun hnil ↦ hport (congrArg some hnil)))
    rw [hsaid]
    exact ⟨hcomma.mpr h.comma, congrArg some hcuda, hnvml.trans (usable_eq_some_iff.mpr
      ⟨h.host, hostAndPort_port_ne_nil_iff.mpr h.port, rfl⟩)⟩

theorem strip_url {scheme : List Char} (hscheme : IsHttp scheme) (rest : List Char) :
    strip (scheme ++ "://".toList ++ rest) =
      scheme ++ "://".toList ++ rest.rdropWhile isPySpace := by
  have hfront : (scheme ++ "://".toList ++ rest).dropWhile isPySpace =
      scheme ++ "://".toList ++ rest := by
    rcases hscheme with rfl | rfl <;> rfl
  have hreverse : (scheme ++ "://".toList).reverse.dropWhile isPySpace =
      (scheme ++ "://".toList).reverse := by
    rcases hscheme with rfl | rfl <;> rfl
  rw [strip, hfront, List.rdropWhile, List.reverse_append, List.dropWhile_append]
  split_ifs with hempty
  · rw [List.isEmpty_iff] at hempty
    rw [List.rdropWhile, hempty, List.reverse_nil, List.append_nil, hreverse, List.reverse_reverse]
  · rw [List.reverse_append, List.reverse_reverse, List.rdropWhile]

theorem CleanLocation.ne_nil {rest : List Char} (h : CleanLocation py rest) : rest ≠ [] := by
  rintro rfl
  exact h.host rfl

theorem urlunsplit_netloc (scheme netloc : List Char) :
    urlunsplit ⟨scheme, netloc, [], [], []⟩ = scheme ++ "://".toList ++ netloc :=
  List.append_nil _

theorem getLast?_append_decimal (front : List Char) (port : ℤ) :
    (front ++ ':' :: decimal port).getLast? = (decimal port).getLast? := by
  rw [List.getLast?_append_of_ne_nil _ (List.cons_ne_nil _ _),
    List.getLast?_cons_of_ne_nil (decimal_ne_nil port)]

theorem withPort_eq (netloc : List Char) (port : ℤ) :
    ∃ front, py.withPort netloc port = front ++ ':' :: decimal port :=
  ⟨_, rfl⟩

theorem withPort_last {netloc : List Char} {port : ℤ} {c : Char}
    (h : c ∈ (py.withPort netloc port).getLast?) : isPySpace c = false := by
  obtain ⟨front, hfront⟩ := @withPort_eq py netloc port
  rw [hfront, getLast?_append_decimal] at h
  exact isPySpace_eq_false_of_mem_decimal (List.mem_of_mem_getLast? h)

theorem normalizeNetloc_cases {parsed : SplitResult} {port : Option ℤ} {netloc : List Char}
    (h : py.normalizeNetloc parsed port = some netloc) :
    netloc = parsed.netloc ∨ ∃ port, netloc = py.withPort parsed.netloc port := by
  rcases port with _ | port
  · rw [PythonText.normalizeNetloc] at h
    split_ifs at h
    · obtain ⟨written, _, rfl⟩ := Option.map_eq_some_iff.mp h
      split_ifs
      · exact Or.inr ⟨_, rfl⟩
      · exact Or.inl rfl
    · exact Or.inl (Option.some_inj.mp h).symm
  · exact Or.inr ⟨port, (Option.some_inj.mp h).symm⟩

theorem urlPort_eq_none_iff {netloc : List Char} :
    urlPort netloc = some none ↔ (hostinfo netloc).2 = [] := by
  rw [urlPort]
  split_ifs with hnil <;> simp [hnil]

theorem withPort_ne {rest : List Char} {port : ℤ} (h : CleanLocation py rest)
    (hport : urlPort rest = some none) : py.withPort rest port ≠ rest := by
  rw [urlPort_eq_none_iff, hostinfo_of_notMem h.userinfo h.bracket] at hport
  intro hsame
  obtain ⟨front, hfront⟩ := @withPort_eq py rest port
  have hcolon : ':' ∈ rest := hsame ▸ hfront ▸ by simp
  rcases cutFirst_cases ':' rest with ⟨hnone, _⟩ | ⟨_, text, _, _, hcut⟩
  · exact hnone hcolon
  · rw [hcut] at hport
    exact h.port (hcut ▸ congrArg some hport)

theorem normalizeServer_url {scheme rest : List Char} (hscheme : IsHttp scheme)
    (hremoved : ∀ c ∈ rest, isUnsafe c = false) (hend : ∀ c ∈ rest, isNetlocEnd c = false)
    (hcheck : py.checkNetloc (rest.rdropWhile isPySpace) = true) :
    py.normalizeServer (scheme ++ "://".toList ++ rest) none =
      if rest.rdropWhile isPySpace = [] then none
      else (py.normalizeNetloc ⟨scheme, rest.rdropWhile isPySpace, [], [], []⟩ none).map
        (scheme ++ "://".toList ++ ·) := by
  have hsubset := (List.rdropWhile_prefix isPySpace rest).subset
  have hne : scheme ++ "://".toList ++ rest.rdropWhile isPySpace ≠ [] := by
    rcases hscheme with rfl | rfl <;> exact List.cons_ne_nil _ _
  have hfilter : (rest.rdropWhile isPySpace).filter (!isUnsafe ·) = rest.rdropWhile isPySpace :=
    List.filter_eq_self.mpr fun c hc ↦ by rw [hremoved c (hsubset hc)]; rfl
  rw [PythonText.normalizeServer, strip_url hscheme, if_neg hne,
    if_pos (isUrl_iff.mpr ⟨scheme, _, hscheme, rfl⟩), PythonText.urlsplit_url hscheme, hfilter,
    PythonText.splitRest_netloc scheme fun c hc ↦ hend c (hsubset hc), if_pos hcheck,
    Option.bind_some]
  refine ite_congr rfl (fun _ ↦ rfl) fun _ ↦ Option.map_congr fun netloc _ ↦ ?_
  exact urlunsplit_netloc scheme netloc

/-- A clean location is in the normal form if nothing is to be stripped and the port of an
`http` URL is one. -/
theorem normalizeServer_clean_iff {scheme rest : List Char} (hscheme : IsHttp scheme)
    (hremoved : ∀ c ∈ rest, isUnsafe c = false) (h : CleanLocation py rest) :
    py.normalizeServer (scheme ++ "://".toList ++ rest) none =
        some (scheme ++ "://".toList ++ rest) ↔
      (∀ c ∈ rest.getLast?, isPySpace c = false) ∧
        (scheme = "http".toList → ∃ n, urlPort rest = some (some n)) := by
  have hsubset := (List.rdropWhile_prefix isPySpace rest).subset
  have hcheck : py.checkNetloc (rest.rdropWhile isPySpace) = true := by
    have hclean := (checkNetloc_iff h.bracket).mp h.check
    exact (checkNetloc_iff fun hmem ↦ h.bracket (hsubset hmem)).mpr
      ⟨fun hmem ↦ hclean.1 (hsubset hmem), fun c hc ↦ hclean.2 c (hsubset hc)⟩
  -- a normal form has no space at its end
  have hlast : (∀ c ∈ rest.getLast?, isPySpace c = false) ↔ rest.rdropWhile isPySpace = rest := by
    rw [List.rdropWhile_eq_self_iff]
    constructor
    · intro hspace hne
      rw [hspace _ (List.getLast?_eq_some_getLast hne)]
      exact Bool.false_ne_true
    · intro hspace c hc
      obtain ⟨hne, rfl⟩ := List.mem_getLast?_eq_getLast hc
      exact eq_false_of_ne_true (hspace hne)
  rw [normalizeServer_url hscheme hremoved h.netlocEnd hcheck, Option.ite_none_left_eq_some,
    Option.map_eq_some_iff]
  constructor
  · rintro ⟨_, netloc, hnetloc, hsame⟩
    obtain rfl := List.append_cancel_left hsame
    have hspace : ∀ c ∈ netloc.getLast?, isPySpace c = false := by
      rcases normalizeNetloc_cases hnetloc with hkept | ⟨port, hwritten⟩
      · exact hlast.mpr hkept.symm
      · exact fun c hc ↦ withPort_last (hwritten ▸ hc)
    rw [hlast.mp hspace] at hnetloc
    refine ⟨hspace, fun hhttp ↦ ?_⟩
    rw [PythonText.normalizeNetloc, if_pos hhttp] at hnetloc
    obtain ⟨port, hport, hnetloc⟩ := Option.map_eq_some_iff.mp hnetloc
    rcases port with _ | n
    · exact absurd hnetloc (withPort_ne h hport)
    · exact ⟨n, hport⟩
  · rintro ⟨hspace, hport⟩
    rw [hlast.mp hspace]
    refine ⟨h.ne_nil, rest, ?_, rfl⟩
    rw [PythonText.normalizeNetloc]
    -- for `http` the port has to be written; else the location is kept
    split_ifs with hhttp
    · obtain ⟨n, hn⟩ := hport hhttp
      rw [hn]
      rfl
    · rfl

/-! ### A location that is written anew

The host name is taken out of the location, put in brackets if it has a colon, and followed by the
port. It is clean if it needed no brackets. -/

/-- A host name of a URL that needs no brackets. -/
def IsHostName (name : List Char) : Prop :=
  name ≠ [] ∧ ':' ∉ name ∧ ',' ∉ name ∧ '[' ∉ name ∧ ']' ∉ name

instance IsHostName.decidable (name : List Char) : Decidable (IsHostName name) :=
  inferInstanceAs (Decidable (_ ∧ _ ∧ _ ∧ _ ∧ _))

theorem mem_hostname {netloc name : List Char} {c : Char} (h : py.hostname netloc = some name)
    (hc : c ∈ name) (hmark : isMark c = true) : c ∈ (hostinfo netloc).1 := by
  rw [PythonText.hostname, Option.ite_none_left_eq_some] at h
  obtain ⟨_, h⟩ := h
  have hsubset := (cutFirst_sublist '%' (hostinfo netloc).1).subset
  rw [← Option.some_inj.mp h, List.mem_append] at hc
  rcases hc with hc | hc
  · exact hsubset (List.mem_append_left _ (py.lower_mark _ c hc hmark))
  · rcases hzone : (cutFirst '%' (hostinfo netloc).1).2 with _ | zone
    · rw [hzone] at hc
      exact absurd hc List.not_mem_nil
    · rw [hzone] at hc hsubset
      rcases List.mem_cons.mp hc with rfl | hc
      · exact absurd hmark (by decide)
      · exact hsubset (List.mem_append_right _ hc)

theorem withPort_of_hostname {netloc name : List Char} (port : ℤ)
    (h : py.hostname netloc = some name) (hcolon : ':' ∉ name) :
    py.withPort netloc port = name ++ ':' :: decimal port := by
  rw [PythonText.withPort, h, Option.getD_some]
  exact congrArg (· ++ _) (if_neg fun hadd ↦ hcolon hadd.1)

/-- **Another port.** A location that is written anew is clean if its host name needs no brackets;
where it has a colon, it is given some. -/
theorem cleanLocation_append_iff {netloc name front : List Char}
    (hend : ∀ c ∈ netloc, isNetlocEnd c = false) (hexpand : ∀ c ∈ netloc, isExpanding c = false)
    (hname : py.hostname netloc = some name) (hplain : ':' ∉ name → front = name)
    (hliteral : ':' ∈ name → '[' ∈ front) (port : ℤ) :
    CleanLocation py (front ++ ':' :: decimal port) ↔ IsHostName name := by
  constructor
  · intro h
    -- the location has to be cut at the port, so the name has no colon
    have hcolon : ':' ∉ name := fun hcolon ↦ h.bracket (List.mem_append_left _ (hliteral hcolon))
    obtain rfl := hplain hcolon
    have hclose := ((checkNetloc_iff h.bracket).mp h.check).1
    have hhost := h.host
    rw [cutFirst_append _ hcolon] at hhost
    exact ⟨hhost, hcolon, fun hmem ↦ h.comma (List.mem_append_left _ hmem),
      fun hmem ↦ h.bracket (List.mem_append_left _ hmem),
      fun hmem ↦ hclose (List.mem_append_left _ hmem)⟩
  · rintro ⟨hne, hcolon, hcomma, hopen, hclose⟩
    obtain rfl := hplain hcolon
    have hsubset := (List.sublist_append_left _ _).trans (hostinfo_sublist netloc)
    -- the digits of the port are no marks, so a mark is the colon in front or in the name
    have hmark {c : Char} (hc : c ∈ front ++ ':' :: decimal port) (hmark : isMark c = true) :
        c = ':' ∨ c ∈ front := by
      rcases List.mem_append.mp hc with hc | hc
      · exact Or.inr hc
      · exact Or.inl ((List.mem_cons.mp hc).resolve_right (notMem_decimal port hmark))
    have hnot {c : Char} (hc : c ∉ front) (hm : isMark c = true) (hne : c ≠ ':') :
        c ∉ front ++ ':' :: decimal port := fun hmem ↦ (hmark hmem hm).elim hne hc
    have hbracket := hnot hopen rfl (by decide)
    have hcut := cutFirst_append (decimal port) hcolon
    refine ⟨hnot hcomma rfl (by decide), hnot (fun hat ↦ ?_) rfl (by decide), hbracket,
      fun c hc ↦ ?_, (checkNetloc_iff hbracket).mpr ⟨hnot hclose rfl (by decide), fun c hc ↦ ?_⟩,
      by rwa [hcut], ?_⟩
    · exact at_notMem_hostinfo netloc (List.mem_append_left _ (mem_hostname hname hat rfl))
    · refine eq_false_of_ne_true fun h ↦ ?_
      rcases hmark hc (isMark_of_isNetlocEnd h) with rfl | hmem
      · exact absurd h (by decide)
      · have hin := hsubset.subset (mem_hostname hname hmem (isMark_of_isNetlocEnd h))
        exact Bool.false_ne_true ((hend c hin).symm.trans h)
    · refine eq_false_of_ne_true fun h ↦ ?_
      rcases hmark hc (isMark_of_isExpanding h) with rfl | hmem
      · exact absurd h (by decide)
      · have hin := hsubset.subset (mem_hostname hname hmem (isMark_of_isExpanding h))
        exact Bool.false_ne_true ((hexpand c hin).symm.trans h)
    · rw [hcut]
      exact fun h ↦ decimal_ne_nil port (Option.some_inj.mp h)

theorem cleanLocation_withPort_iff {netloc : List Char}
    (hend : ∀ c ∈ netloc, isNetlocEnd c = false) (hexpand : ∀ c ∈ netloc, isExpanding c = false)
    (port : ℤ) :
    CleanLocation py (py.withPort netloc port) ↔
      ∃ name ∈ py.hostname netloc, IsHostName name := by
  rcases hname : py.hostname netloc with _ | name
  · refine iff_of_false (fun h ↦ absurd ?_ h.host) fun ⟨_, hmem, _⟩ ↦ (nomatch hmem)
    rw [PythonText.withPort, hname]
    rfl
  · rw [PythonText.withPort, hname, Option.getD_some, cleanLocation_append_iff hend hexpand hname]
    · exact ⟨fun h ↦ ⟨name, rfl, h⟩, fun ⟨_, hmem, h⟩ ↦ Option.mem_some_iff.mp hmem ▸ h⟩
    · exact fun hcolon ↦ if_neg fun hadd ↦ hcolon hadd.1
    · intro hcolon
      split_ifs with hadd
      · exact List.mem_cons_self
      · rw [not_and_not_right] at hadd
        exact List.mem_of_mem_head? (hadd hcolon)

theorem urlPort_decimal_iff {name : List Char} (port : ℤ) (hcolon : ':' ∉ name) (hat : '@' ∉ name)
    (hbracket : '[' ∉ name) :
    (∃ n, urlPort (name ++ ':' :: decimal port) = some (some n)) ↔ 0 ≤ port ∧ port ≤ 65535 := by
  have hinfo : hostinfo (name ++ ':' :: decimal port) = (name, decimal port) := by
    have hnot {c : Char} (hc : c ∉ name) (hm : isMark c = true) (hne : c ≠ ':') :
        c ∉ name ++ ':' :: decimal port := by
      rw [List.mem_append, List.mem_cons, not_or, not_or]
      exact ⟨hc, hne, notMem_decimal port hm⟩
    rw [hostinfo_of_notMem (hnot hat rfl (by decide)) (hnot hbracket rfl (by decide)),
      cutFirst_append _ hcolon, Option.getD_some]
  rw [urlPort, hinfo, if_neg (decimal_ne_nil port)]
  cases port with
  | ofNat n =>
    have hdigits : (Nat.toDigits 10 n).all Char.isDigit = true :=
      List.all_eq_true.mpr fun c hc ↦ Nat.isDigit_of_mem_toDigits (by decide) (by decide) hc
    simp only [decimal, hdigits, Bool.true_and, Nat.ofDigitChars_ten_toDigits]
    rcases Nat.lt_or_ge 65535 n with hlarge | hsmall
    · rw [if_neg (by simp [hlarge])]
      refine iff_of_false (fun ⟨_, h⟩ ↦ (nomatch h)) fun h ↦ ?_
      exact absurd (Int.ofNat_le.mp h.2) (Nat.not_le.mpr hlarge)
    · have hfive : (Nat.toDigits 10 n).length ≤ 5 :=
        (Nat.length_toDigits_le_iff (by decide) (by decide)).mpr (by omega)
      have hlength : (Nat.toDigits 10 n).length ≤ 4300 := hfive.trans (by decide)
      rw [if_pos (by simp [hlength, hsmall])]
      exact iff_of_true ⟨n, rfl⟩ ⟨Int.natCast_nonneg n, Int.ofNat_le.mpr hsmall⟩
  | negSucc n =>
    have hminus : (decimal (Int.negSucc n)).all Char.isDigit = false := rfl
    rw [hminus, if_neg (by simp)]
    exact iff_of_false (fun ⟨_, h⟩ ↦ (nomatch h)) fun h ↦ absurd h.1 (by omega)

/-! ### The whole of it

A URL that is kept must be in order as it is. -/

/-- Whether the location of a URL is written anew. -/
def Rewritten (parsed : SplitResult) (port : Option ℤ) : Prop :=
  port ≠ none ∨ parsed.scheme = "http".toList ∧ urlPort parsed.netloc = some none

instance Rewritten.decidable (parsed : SplitResult) (port : Option ℤ) :
    Decidable (Rewritten parsed port) :=
  inferInstanceAs (Decidable (_ ∨ _ ∧ _))

/-- A location that is kept and that the clients understand. -/
def IsLocation (netloc : List Char) : Prop :=
  (',' ∉ netloc ∧ '@' ∉ netloc ∧ '[' ∉ netloc) ∧
    ((cutFirst ':' netloc).1 ≠ [] ∧ (cutFirst ':' netloc).2 ≠ some []) ∧
    ∀ c ∈ netloc.getLast?, isPySpace c = false

instance IsLocation.decidable (netloc : List Char) : Decidable (IsLocation netloc) :=
  have : Decidable (∀ c ∈ netloc.getLast?, isPySpace c = false) := Option.decidableForallMem _
  inferInstanceAs (Decidable (_ ∧ _ ∧ _))

/-- What the clients understand of a URL: there is a location and nothing else, it is kept as it is
or has a host name that can stand without brackets, and a port given for `http` is one. -/
def UrlUnderstood (py : PythonText) (parsed : SplitResult) (port : Option ℤ) : Prop :=
  (parsed.path = [] ∧ parsed.query = [] ∧ parsed.fragment = []) ∧
    if Rewritten parsed port then
      (∃ name ∈ py.hostname parsed.netloc, IsHostName name) ∧
        (parsed.scheme = "http".toList → ∀ p ∈ port, 0 ≤ p ∧ p ≤ 65535)
    else IsLocation parsed.netloc

instance UrlUnderstood.decidable (parsed : SplitResult) (port : Option ℤ) :
    Decidable (UrlUnderstood py parsed port) :=
  inferInstanceAs (Decidable (_ ∧ ite _ ((∃ name ∈ _, IsHostName name) ∧ (_ → _)) _))

theorem normalizeNetloc_of_rewritten {parsed : SplitResult} {port : Option ℤ} {netloc : List Char}
    (h : py.normalizeNetloc parsed port = some netloc) (hrewritten : Rewritten parsed port) :
    netloc = py.withPort parsed.netloc (port.getD 14833) := by
  rcases port with _ | port
  · obtain ⟨hhttp, hport⟩ := hrewritten.resolve_left (fun h ↦ h rfl)
    rw [PythonText.normalizeNetloc, if_pos hhttp, hport] at h
    exact (Option.some_inj.mp h).symm
  · exact (Option.some_inj.mp h).symm

theorem normalizeNetloc_of_kept {parsed : SplitResult} {port : Option ℤ} {netloc : List Char}
    (h : py.normalizeNetloc parsed port = some netloc) (hkept : ¬Rewritten parsed port) :
    netloc = parsed.netloc ∧
      (parsed.scheme = "http".toList → ∃ n, urlPort parsed.netloc = some (some n)) := by
  rw [Rewritten, not_or, not_not, not_and] at hkept
  obtain ⟨rfl, hkept⟩ := hkept
  rw [PythonText.normalizeNetloc] at h
  split_ifs at h with hhttp
  · obtain ⟨written, hport, rfl⟩ := Option.map_eq_some_iff.mp h
    rcases written with _ | n
    · exact absurd hport (hkept hhttp)
    · exact ⟨rfl, fun _ ↦ ⟨n, hport⟩⟩
  · exact ⟨(Option.some_inj.mp h).symm, fun h ↦ absurd h hhttp⟩

theorem isUnsafe_append {netloc front : List Char} (port : ℤ)
    (h : ∀ c ∈ netloc, isUnsafe c = false)
    (hfront : ∀ c ∈ front, c = '[' ∨ c = ']' ∨ ∃ name ∈ py.hostname netloc, c ∈ name) :
    ∀ c ∈ front ++ ':' :: decimal port, isUnsafe c = false := by
  intro c hc
  refine eq_false_of_ne_true fun hremoved ↦ ?_
  have hmark := isMark_of_isUnsafe hremoved
  rw [List.mem_append, List.mem_cons] at hc
  rcases hc with hc | rfl | hc
  · rcases hfront c hc with rfl | rfl | ⟨name, hname, hc⟩
    · exact absurd hremoved (by decide)
    · exact absurd hremoved (by decide)
    · have hin := ((List.sublist_append_left _ _).trans (hostinfo_sublist netloc)).subset
        (mem_hostname hname hc hmark)
      exact Bool.false_ne_true ((h c hin).symm.trans hremoved)
  · exact absurd hremoved (by decide)
  · exact absurd hc (notMem_decimal port hmark)

theorem mem_brackets {p : Prop} [Decidable p] {name : List Char} {c : Char}
    (h : c ∈ if p then '[' :: name ++ [']'] else name) : c = '[' ∨ c = ']' ∨ c ∈ name := by
  split_ifs at h
  · rw [List.mem_append, List.mem_cons, List.mem_singleton] at h
    tauto
  · exact Or.inr (Or.inr h)

theorem isUnsafe_withPort {netloc : List Char} (port : ℤ)
    (h : ∀ c ∈ netloc, isUnsafe c = false) : ∀ c ∈ py.withPort netloc port, isUnsafe c = false := by
  refine @isUnsafe_append py _ _ port h fun c hc ↦
    (mem_brackets hc).imp_right (Or.imp_right fun hc ↦ ?_)
  rcases hname : py.hostname netloc with _ | name
  · rw [hname] at hc
    exact absurd hc List.not_mem_nil
  · rw [hname] at hc
    exact ⟨name, rfl, hc⟩

theorem cleanLocation_kept_iff {netloc : List Char} (hend : ∀ c ∈ netloc, isNetlocEnd c = false)
    (hcheck : py.checkNetloc netloc = true) :
    CleanLocation py netloc ↔ (',' ∉ netloc ∧ '@' ∉ netloc ∧ '[' ∉ netloc) ∧
      (cutFirst ':' netloc).1 ≠ [] ∧ (cutFirst ':' netloc).2 ≠ some [] :=
  ⟨fun h ↦ ⟨⟨h.comma, h.userinfo, h.bracket⟩, h.host, h.port⟩,
    fun h ↦ ⟨h.1.1, h.1.2.1, h.1.2.2, hend, hcheck, h.2.1, h.2.2⟩⟩

/-- **A URL that is given to the adapter.** -/
theorem normalizeUrl_iff {parsed : SplitResult} {rest netloc : List Char} (port : Option ℤ)
    (hscheme : IsHttp parsed.scheme) (hremoved : ∀ c ∈ rest, isUnsafe c = false)
    (hparts : PythonText.PartsOf py parsed.scheme rest parsed)
    (hnetloc : py.normalizeNetloc parsed port = some netloc) :
    CarriedOver (urlunsplit { parsed with netloc })
          (py.addressed (urlunsplit { parsed with netloc })) ∧
        py.normalizeServer (urlunsplit { parsed with netloc }) none =
          some (urlunsplit { parsed with netloc }) ↔
      UrlUnderstood py parsed port := by
  have haddress : urlunsplit { parsed with netloc } =
      parsed.scheme ++ "://".toList ++ (netloc ++ parsed.tail) := List.append_assoc _ _ _
  -- nothing that Python removes is left in the address, as a port adds none of it
  have hsafe : ∀ c ∈ netloc ++ parsed.tail, isUnsafe c = false := by
    have hkept : ∀ c ∈ parsed.netloc, isUnsafe c = false := fun c hc ↦
      hremoved c (hparts.netlocSubset hc)
    intro c hc
    rcases List.mem_append.mp hc with hc | hc
    · rcases normalizeNetloc_cases hnetloc with rfl | ⟨p, rfl⟩
      · exact hkept c hc
      · exact isUnsafe_withPort p hkept c hc
    · refine (hparts.tailSubset c hc).elim (fun hend ↦ ?_) (hremoved c)
      simp only [isNetlocEnd, Bool.or_eq_true, decide_eq_true_eq] at hend
      rcases hend with (rfl | rfl) | rfl <;> rfl
  rw [haddress, carriedOver_url_iff hscheme hsafe, and_congr_right fun h ↦
    normalizeServer_clean_iff hscheme hsafe h, UrlUnderstood, ← tail_eq_nil_iff]
  -- with a path, or anything else behind the location, the clients read it wrong
  rcases eq_or_ne parsed.tail [] with htail | htail
  · rw [htail, List.append_nil, and_iff_right rfl]
    -- the location is written anew where a port is put into it, and else kept as it was
    split_ifs with hrewritten
    · obtain rfl := normalizeNetloc_of_rewritten hnetloc hrewritten
      rw [cleanLocation_withPort_iff hparts.netlocEnd (not_isExpanding hparts.netloc)]
      refine and_congr_right ?_
      rintro ⟨name, hname, hne, hcolon, hcomma, hopen, hclose⟩
      have hat : '@' ∉ name := fun hat ↦ at_notMem_hostinfo parsed.netloc
        (List.mem_append_left _ (mem_hostname hname hat rfl))
      rw [and_iff_right fun c hc ↦ withPort_last hc, withPort_of_hostname _ hname hcolon,
        urlPort_decimal_iff _ hcolon hat hopen]
      refine imp_congr_right fun _ ↦ ?_
      rcases port with _ | port
      · exact iff_of_true (by decide) fun p hp ↦ absurd hp (Option.not_mem_none p)
      · exact ⟨fun h p hp ↦ Option.mem_some_iff.mp hp ▸ h, fun h ↦ h port rfl⟩
    · obtain ⟨rfl, hport⟩ := normalizeNetloc_of_kept hnetloc hrewritten
      rw [cleanLocation_kept_iff hparts.netlocEnd hparts.netloc, IsLocation, and_assoc,
        and_iff_left hport, and_assoc]
  · refine iff_of_false (fun h ↦ ?_) fun h ↦ htail h.1
    obtain ⟨c, hc, hend⟩ := exists_isNetlocEnd_of_tail htail
    have hfree := h.1.netlocEnd c (List.mem_append_right _ hc)
    exact Bool.false_ne_true (hfree.symm.trans hend)

/-! ## The two writers -/

variable (py) in
/-- What the clients understand of a host that is given to the adapter. -/
def PythonText.Understood (host : List Char) (port : Option ℤ) : Prop :=
  if isUrl (strip host) then ∃ parsed ∈ py.urlsplit (strip host), UrlUnderstood py parsed port
  else NameUnderstood (strip host) port

instance PythonText.Understood.decidable (host : List Char) (port : Option ℤ) :
    Decidable (py.Understood host port) :=
  inferInstanceAs (Decidable (ite _ (∃ parsed ∈ _, UrlUnderstood py parsed port) _))

theorem strip_strip (text : List Char) : strip (strip text) = strip text :=
  strip_eq_self (fun _ hc ↦ isPySpace_head_strip hc) fun _ hc ↦ isPySpace_getLast_strip hc

/-- **The adapter.** The clients read a normal form as it is meant and it is its own normal form,
just if they understand what was given. -/
theorem normalizeServer_iff {host address : List Char} {port : Option ℤ}
    (h : py.normalizeServer host port = some address) :
    CarriedOver address (py.addressed address) ∧
        py.normalizeServer address none = some address ↔
      py.Understood host port := by
  rw [PythonText.normalizeServer, Option.ite_none_left_eq_some] at h
  obtain ⟨hne, h⟩ := h
  rw [PythonText.Understood]
  split_ifs at h ⊢ with hurl
  · obtain ⟨parsed, hparsed, h⟩ := Option.bind_eq_some_iff.mp h
    rw [Option.ite_none_left_eq_some, Option.map_eq_some_iff] at h
    obtain ⟨_, netloc, hnetloc, rfl⟩ := h
    obtain ⟨scheme, rest, hscheme, htext⟩ := isUrl_iff.mp hurl
    have hsplit := hparsed
    rw [htext, PythonText.urlsplit_url hscheme] at hsplit
    have hparts := PythonText.partsOf_splitRest hsplit
    obtain rfl := hparts.scheme
    have hsafe : ∀ c ∈ rest.filter (!isUnsafe ·), isUnsafe c = false := fun c hc ↦
      (Bool.not_eq_true' _).mp (List.mem_filter.mp hc).2
    rw [normalizeUrl_iff port hscheme hsafe hparts hnetloc, hparsed]
    exact ⟨fun h ↦ ⟨parsed, rfl, h⟩, fun ⟨_, hmem, h⟩ ↦ Option.mem_some_iff.mp hmem ▸ h⟩
  · obtain rfl := Option.some_inj.mp h
    exact normalizeName_iff port (strip_strip host) hne hurl

end Url

end Lupine
