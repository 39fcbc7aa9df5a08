import Mathlib.Data.List.Nodup
import Lupine.Routing.AdapterAddresses

/-!
# The hosts of the launcher

The launcher takes its hosts from the command line as `[user@]address[:port]` and may be given, in
the same order, the endpoints of a transport that clients are to use in place of the addresses. What
it hands on is the addresses and ports of the hosts with commas between them, or the endpoints as
URLs of one form.

The clients read the list as it is meant just if no address has a colon or is taken for a scheme,
and no endpoint is a literal address. With what was said of the adapter this makes the whole of what
the two programs may write, `servers_understood`.

## From text to text

A host goes through three forms: the candidate on the command line, the parsed host, and what is
handed on. Each step keeps the address and the port apart, so an entry that is handed on is read as
it is meant exactly if it was written so that its colon is the one before the port.
-/

namespace Lupine

open Foundation

structure Host where
  sshTarget : List Char
  address : List Char
  port : ℕ
  transportEndpoint : Option (List Char)
  deriving DecidableEq

/-- What the clients are told of a host. -/
def Host.endpoint (host : Host) : List Char :=
  (host.transportEndpoint.filter (· ≠ [])).getD (host.address ++ ':' :: decimal host.port)

def Host.withEndpoint (host : Host) (endpoint : List Char) : Host :=
  { host with transportEndpoint := some endpoint }

/-- The entries of arguments that each are a list with commas. -/
def splitItems (values : List (List Char)) : List (List Char) := values.flatMap (·.splitOn ',')

/-- `LUPINE_SERVER` as the launcher hands it to a container. -/
def launcherServers (hosts : List Host) : Option (List Char) :=
  handOn (joinServers (hosts.map Host.endpoint))

namespace PythonText

variable (py : PythonText)

/-- The candidate for the address and the port behind it, if one is written. -/
def rawPort (addressPart : List Char) : Option (List Char × List Char) :=
  let (candidate, rawPort) := cutLast ':' addressPart
  if addressPart.count ':' = 1 ∧ py.isDigit rawPort = true then some (candidate.getD [], rawPort)
  else none

/-- `parse_host`, with nothing for an error. -/
def parseHost (value : List Char) : Option Host :=
  let value := strip value
  if value = [] ∨ value.any isPySpace = true then none
  else
    let addressPart := (cutLast '@' value).2
    let parsed := match py.rawPort addressPart with
      | some (candidate, rawPort) => (py.int rawPort).map fun port ↦
          (⟨value.take (value.length - rawPort.length - 1), candidate, port, none⟩ : Host)
      | none => some ⟨value, addressPart, 14833, none⟩
    parsed.filter fun host ↦ host.address ≠ [] ∧ 1 ≤ host.port ∧ host.port ≤ 65535

/-- `expand_hosts`. -/
def expandHosts (values : List (List Char)) : Option (List Host) :=
  ((splitItems values).mapM py.parseHost).filter fun hosts ↦
    hosts ≠ [] ∧ (hosts.map Host.endpoint).Nodup

/-- The form in which `apply_transport_endpoints` hands on one endpoint. -/
def canonicalEndpoint (endpoint : List Char) : Option (List Char) :=
  (py.urlsplit endpoint).bind fun parsed ↦
    (urlPort parsed.netloc).bind fun port ↦
      (py.hostname parsed.netloc).bind fun hostname ↦
        if parsed.scheme ≠ "https".toList ∨ hostname = [] ∨ (∃ p ∈ port, ¬(1 ≤ p ∧ p ≤ 65535)) ∨
            username parsed.netloc ≠ none ∨ password parsed.netloc ≠ none ∨
            ¬(parsed.path = [] ∨ parsed.path = ['/']) ∨ parsed.query ≠ [] ∨
            parsed.fragment ≠ [] then
          none
        else
          some ("https://".toList ++
            ((if ':' ∈ hostname then '[' :: hostname ++ [']'] else hostname) ++
              ':' :: decimal ((port.getD 443 : ℕ) : ℤ)))

/-- `apply_transport_endpoints`. -/
def applyTransportEndpoints (hosts : List Host) (values : List (List Char)) : Option (List Host) :=
  if values = [] then some hosts
  else
    let endpoints := (splitItems values).map strip
    if endpoints.length ≠ hosts.length then none
    else
      ((hosts.zip endpoints).mapM fun (host, endpoint) ↦
        (py.canonicalEndpoint endpoint).map (Host.withEndpoint host)).filter
        fun configured ↦ (configured.map Host.endpoint).Nodup

/-- The server that a host stands for: its address and port, or what its URL says. -/
def meant (host : Host) : Option Endpoint :=
  match host.transportEndpoint with
  | none => some ⟨host.address, decimal host.port, false⟩
  | some endpoint => py.addressed endpoint

/-! ## What the clients understand -/

/-- The address of a host as it is written, behind the user's name and before a port. -/
def hostAddress (item : List Char) : List Char :=
  let addressPart := (cutLast '@' (strip item)).2
  ((py.rawPort addressPart).map Prod.fst).getD addressPart

/-- A host with a plain name for an address. -/
def HostUnderstood (item : List Char) : Prop :=
  ':' ∉ py.hostAddress item ∧ IsPlainName (py.hostAddress item)

/-- An endpoint whose host name needs no brackets. -/
def EndpointUnderstood (endpoint : List Char) : Prop :=
  ∃ parsed ∈ py.urlsplit endpoint, ∃ name ∈ py.hostname parsed.netloc, IsHostName name

instance HostUnderstood.decidable (item : List Char) : Decidable (py.HostUnderstood item) :=
  inferInstanceAs (Decidable (_ ∧ _))

instance EndpointUnderstood.decidable (endpoint : List Char) :
    Decidable (py.EndpointUnderstood endpoint) :=
  inferInstanceAs (Decidable (∃ parsed ∈ _, ∃ name ∈ py.hostname (SplitResult.netloc parsed),
    IsHostName name))

end PythonText

variable {py : PythonText}

/-! ## Hosts

The port of a host is printed as a number, so only the address can be taken for something else. -/

theorem colon_notMem_host (token : List Char) : ':' ∉ (rpcOpenEndpoint token).host := by
  have hcut (tls : Bool) (text : List Char) : ':' ∉ (hostAndPort tls text).host :=
    notMem_cutFirst ':' text
  rw [rpcOpenEndpoint]
  split_ifs
  · exact hcut _ _
  · exact hcut _ _
  · exact hcut _ _

/-- **A host with its address and port.** -/
theorem carriedOver_host_iff {address : List Char} (port : ℤ) :
    CarriedOver (address ++ ':' :: decimal port) (some ⟨address, decimal port, false⟩) ↔
      ':' ∉ address ∧ IsPlainName address := by
  constructor
  · intro h
    have hcolon : ':' ∉ address := by
      have hhost : (rpcOpenEndpoint (address ++ ':' :: decimal port)).host = address :=
        congrArg Endpoint.host (Option.some_inj.mp h.cuda)
      exact fun hcolon ↦ colon_notMem_host _ (hhost.symm ▸ hcolon)
    exact ⟨hcolon, ((carriedOver_name_iff (not_isUrl_decimal port hcolon) hcolon
      (notMem_decimal port rfl)).mp h).1⟩
  · rintro ⟨hcolon, hname⟩
    exact (carriedOver_name_iff (not_isUrl_decimal port hcolon) hcolon
      (notMem_decimal port rfl)).mpr ⟨hname, isPlainPort_decimal port⟩

theorem parseHost_eq_some {item : List Char} {host : Host} (h : py.parseHost item = some host) :
    host.transportEndpoint = none ∧ host.address = py.hostAddress item := by
  rw [PythonText.parseHost, Option.ite_none_left_eq_some, Option.filter_eq_some_iff] at h
  have h := h.2.1
  rw [PythonText.hostAddress]
  generalize py.rawPort (cutLast '@' (strip item)).2 = raw at h ⊢
  rcases raw with _ | ⟨candidate, rawPort⟩
  · obtain rfl := Option.some_inj.mp h
    exact ⟨rfl, rfl⟩
  · obtain ⟨port, _, rfl⟩ := Option.map_eq_some_iff.mp h
    exact ⟨rfl, rfl⟩

theorem carriedOver_parseHost_iff {item : List Char} {host : Host}
    (h : py.parseHost item = some host) :
    CarriedOver host.endpoint (py.meant host) ↔ py.HostUnderstood item := by
  obtain ⟨hendpoint, haddress⟩ := parseHost_eq_some h
  have hplain : host.endpoint = host.address ++ ':' :: decimal host.port := by
    rw [Host.endpoint, hendpoint]
    rfl
  have hmeant : py.meant host = some ⟨host.address, decimal host.port, false⟩ := by
    rw [PythonText.meant, hendpoint]
  rw [hplain, hmeant, carriedOver_host_iff, PythonText.HostUnderstood, haddress]

/-! ## Transport endpoints

An endpoint is brought into one form, which has brackets exactly around a literal address. -/

theorem canonicalEndpoint_ne_nil {endpoint canonical : List Char}
    (h : py.canonicalEndpoint endpoint = some canonical) : canonical ≠ [] := by
  obtain ⟨_, _, h⟩ := Option.bind_eq_some_iff.mp h
  obtain ⟨_, _, h⟩ := Option.bind_eq_some_iff.mp h
  obtain ⟨_, _, h⟩ := Option.bind_eq_some_iff.mp h
  obtain rfl := Option.some_inj.mp (Option.ite_none_left_eq_some.mp h).2
  exact List.cons_ne_nil _ _

/-- **A transport endpoint.** -/
theorem carriedOver_canonical_iff {endpoint canonical : List Char}
    (h : py.canonicalEndpoint endpoint = some canonical) :
    CarriedOver canonical (py.addressed canonical) ↔ py.EndpointUnderstood endpoint := by
  obtain ⟨parsed, hparsed, h⟩ := Option.bind_eq_some_iff.mp h
  obtain ⟨port, _, h⟩ := Option.bind_eq_some_iff.mp h
  obtain ⟨name, hname, h⟩ := Option.bind_eq_some_iff.mp h
  obtain ⟨_, h⟩ := Option.ite_none_left_eq_some.mp h
  obtain rfl := Option.some_inj.mp h
  have hne : parsed.netloc ≠ [] := by
    intro hnil
    rw [hnil] at hname
    exact nomatch hname
  obtain ⟨rest, hremoved, hparts⟩ := PythonText.partsOf_urlsplit hparsed hne
  have hsafe : ∀ c ∈ parsed.netloc, isUnsafe c = false := fun c hc ↦
    hremoved c (hparts.netlocSubset hc)
  have hread := @carriedOver_url_iff py "https".toList _ (Or.inr rfl)
    (isUnsafe_append ((port.getD 443 : ℕ) : ℤ) hsafe fun c hc ↦
      (@mem_brackets (':' ∈ name) _ name c hc).imp_right
        (Or.imp_right fun hc ↦ ⟨name, hname, hc⟩))
  have hliteral (hcolon : ':' ∈ name) :
      '[' ∈ if ':' ∈ name then '[' :: name ++ [']'] else name := by
    rw [if_pos hcolon]
    exact List.mem_cons_self
  have hclean := cleanLocation_append_iff hparts.netlocEnd (not_isExpanding hparts.netloc) hname
    (fun hcolon ↦ if_neg hcolon) hliteral ((port.getD 443 : ℕ) : ℤ)
  refine hread.trans (hclean.trans ?_)
  rw [PythonText.EndpointUnderstood, hparsed]
  exact ⟨fun h ↦ ⟨parsed, rfl, name, hname, h⟩, fun ⟨found, hfound, other, hother, h⟩ ↦ by
    obtain rfl := Option.mem_some_iff.mp hfound
    exact Option.some_inj.mp (hother.symm.trans hname) ▸ h⟩

theorem carriedOver_withEndpoint_iff {host : Host} {endpoint canonical : List Char}
    (h : py.canonicalEndpoint endpoint = some canonical) :
    CarriedOver (host.withEndpoint canonical).endpoint (py.meant (host.withEndpoint canonical)) ↔
      py.EndpointUnderstood endpoint := by
  have hendpoint : (host.withEndpoint canonical).endpoint = canonical := by
    have hne := canonicalEndpoint_ne_nil h
    simp [Host.endpoint, Host.withEndpoint, Option.filter_some, hne]
  rw [hendpoint]
  exact carriedOver_canonical_iff h

/-! ## The lists

A comma can be in no entry that was split off at commas. -/

theorem handOn_eq_some {text found : List Char} (h : handOn text = some found) : text = found :=
  Option.some_inj.mp (Option.ite_none_left_eq_some.mp h).2

theorem addressedAs_servers_iff {hosts servers : List (List Char)} {port : Option ℤ}
    {configuration : List Char} (hservers : py.normalizeHosts hosts port = some servers)
    (hconfiguration : setServerEnv servers = some configuration) :
    AddressedAs configuration (servers.map py.addressed) ∧
        (∀ server ∈ servers, py.normalizeServer server none = some server) ↔
      ∀ host ∈ hosts, py.Understood host port := by
  obtain rfl := handOn_eq_some hconfiguration
  have hentries := addressedAs_iff servers id py.addressed
  rw [List.map_id] at hentries
  rw [hentries, ← forall₂_and]
  exact forall_mem_of_mapM hservers fun host address h ↦ normalizeServer_iff h

theorem addressedAs_hosts_iff {values endpoints : List (List Char)} {hosts configured : List Host}
    {configuration : List Char} (hhosts : py.expandHosts values = some hosts)
    (hconfigured : py.applyTransportEndpoints hosts endpoints = some configured)
    (hconfiguration : launcherServers configured = some configuration) :
    AddressedAs configuration (configured.map py.meant) ↔
      if endpoints = [] then ∀ item ∈ splitItems values, py.HostUnderstood item
      else ∀ item ∈ splitItems endpoints, py.EndpointUnderstood (strip item) := by
  obtain rfl := handOn_eq_some hconfiguration
  rw [addressedAs_iff]
  rw [PythonText.applyTransportEndpoints] at hconfigured
  rcases eq_or_ne endpoints [] with rfl | hne
  · rw [if_pos rfl] at hconfigured ⊢
    obtain rfl := Option.some_inj.mp hconfigured
    have hhosts := (Option.filter_eq_some_iff.mp hhosts).1
    exact forall_mem_of_mapM hhosts fun item host h ↦ carriedOver_parseHost_iff h
  · rw [if_neg hne] at hconfigured ⊢
    obtain ⟨hlength, hconfigured⟩ := Option.ite_none_left_eq_some.mp hconfigured
    have hpairs : ∀ (pair : Host × List Char) (host : Host),
        (py.canonicalEndpoint pair.2).map (Host.withEndpoint pair.1) = some host →
        (CarriedOver host.endpoint (py.meant host) ↔ py.EndpointUnderstood pair.2) := by
      intro pair host h
      obtain ⟨canonical, hcanonical, rfl⟩ := Option.map_eq_some_iff.mp h
      exact carriedOver_withEndpoint_iff hcanonical
    rw [forall_mem_of_mapM (Option.filter_eq_some_iff.mp hconfigured).1 hpairs]
    have hsnd := List.map_snd_zip (Nat.le_of_eq (not_not.mp hlength))
    have hendpoints := @List.forall_mem_map _ _ Prod.snd
      (hosts.zip ((splitItems endpoints).map strip)) py.EndpointUnderstood
    rw [← hendpoints, hsnd, List.forall_mem_map]

/-- **The lists of servers.** Whatever the adapter or the launcher writes, both clients read each
entry as the server that it is meant to name, and number the servers that can be reached alike, just
if they understand every address that was given; of the adapter's addresses this also says whether
each is its own normal form. -/
theorem servers_understood (py : PythonText) :
    (∀ hosts port servers configuration, py.normalizeHosts hosts port = some servers →
      setServerEnv servers = some configuration →
      (AddressedAs configuration (servers.map py.addressed) ∧
          (∀ server ∈ servers, py.normalizeServer server none = some server) ↔
        ∀ host ∈ hosts, py.Understood host port)) ∧
    ∀ values endpoints hosts configured configuration, py.expandHosts values = some hosts →
      py.applyTransportEndpoints hosts endpoints = some configured →
      launcherServers configured = some configuration →
      (AddressedAs configuration (configured.map py.meant) ↔
        if endpoints = [] then ∀ item ∈ splitItems values, py.HostUnderstood item
        else ∀ item ∈ splitItems endpoints, py.EndpointUnderstood (strip item)) :=
  ⟨fun _ _ _ _ hservers hconfiguration ↦ addressedAs_servers_iff hservers hconfiguration,
    fun _ _ _ _ _ hhosts hconfigured hconfiguration ↦
      addressedAs_hosts_iff hhosts hconfigured hconfiguration⟩

/-! ### Texts of ASCII -/

theorem isMark_toLower {c : Char} (h : isMark c.toLower = true) : c.toLower = c := by
  rcases Decidable.em (65 ≤ c.toNat ∧ c.toNat ≤ 90) with hupper | hother
  · have hletters : ∀ n < 26, isMark (Char.ofNat (65 + n)).toLower = false := by decide
    have hc : Char.ofNat (65 + (c.toNat - 65)) = c := by
      rw [Nat.add_sub_cancel' hupper.1, Char.ofNat_toNat]
    have hletter := hletters (c.toNat - 65) (by omega)
    rw [hc, h] at hletter
    exact absurd hletter.symm Bool.false_ne_true
  · exact dif_neg hother

/-- The tables of Python on ASCII. What stands in brackets passes if it has a colon. -/
def asciiText : PythonText where
  lower := List.map Char.toLower
  isDigit text := text ≠ [] && text.all Char.isDigit
  int text := some (Nat.ofDigitChars 10 text 0)
  checkBracketedHost text := decide (':' ∈ text)
  lower_mark text c hc hmark := by
    obtain ⟨a, ha, rfl⟩ := List.mem_map.mp hc
    rwa [isMark_toLower hmark]

/-- A name and a URL are understood wherever they are written. -/
theorem servers_understood_names :
    AddressedAs "node-1:14833,https://node-2:9443".toList
        (["node-1:14833".toList, "https://node-2:9443".toList].map asciiText.addressed) ∧
      AddressedAs "node-1:14833,node-2:9000".toList
        ([⟨"root@node-1".toList, "node-1".toList, 14833, none⟩,
          ⟨"node-2".toList, "node-2".toList, 9000, none⟩].map asciiText.meant) := by
  constructor
  · have hservers : asciiText.normalizeHosts ["node-1".toList, "https://node-2:9443".toList] none =
        some ["node-1:14833".toList, "https://node-2:9443".toList] := by decide +kernel
    exact (((servers_understood asciiText).1 _ none _ _ hservers (by decide +kernel)).mpr
      (by decide +kernel)).1
  · have hhosts : asciiText.expandHosts ["root@node-1,node-2:9000".toList] =
        some [⟨"root@node-1".toList, "node-1".toList, 14833, none⟩,
          ⟨"node-2".toList, "node-2".toList, 9000, none⟩] := by decide +kernel
    exact ((servers_understood asciiText).2 _ [] _ _ _ hhosts (by decide +kernel)
      (by decide +kernel)).mpr (by decide +kernel)

/-- A literal address of IPv6 is put in brackets, and both clients cut it at its first colon. A URL
that ends with a slash takes the slash into the host. -/
theorem literal_address_cut :
    ∃ servers configuration,
      asciiText.normalizeHosts ["::1".toList, "https://node-2/".toList] none = some servers ∧
      setServerEnv servers = some configuration ∧
      servers.map asciiText.addressed = [some ⟨"::1".toList, "14833".toList, false⟩,
        some ⟨"node-2".toList, "443".toList, true⟩] ∧
      (serverTokens configuration).map rpcOpenEndpoint = [⟨"[".toList, ":1]:14833".toList, false⟩,
        ⟨"node-2/".toList, "443".toList, true⟩] ∧
      (serverTokens configuration).filterMap openConnectionEndpoint =
        [⟨"[".toList, ":1]:14833".toList, false⟩, ⟨"node-2/".toList, "443".toList, true⟩] ∧
      ¬AddressedAs configuration (servers.map asciiText.addressed) := by
  refine ⟨["[::1]:14833".toList, "https://node-2/".toList], "[::1]:14833,https://node-2/".toList,
    by decide +kernel, by decide +kernel, by decide +kernel, by decide +kernel,
    by decide +kernel, fun h ↦ ?_⟩
  exact absurd h.cuda (by decide +kernel)

end Lupine
