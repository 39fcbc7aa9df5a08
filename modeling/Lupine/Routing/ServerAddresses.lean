import Mathlib.Data.Option.Basic
import Lupine.Routing.Urls

/-!
# Reading the list of servers

`LUPINE_SERVER` is a list of addresses with commas between them. The CUDA client and the NVML client
each take it apart on their own and connect to what they read, in order and to at most 16 servers.
Both cut an address at its first colon, once the scheme is taken off, and know nothing of brackets
or of what may follow the port of a URL. The NVML client leaves out what it cannot use, where the
CUDA client tries it.

A list is understood if both clients read it as it is meant. That is a matter of its entries alone,
`addressedAs_iff`: the commas must fall between them, and each must be read right by both clients.

## Marks

An entry is understood or not by where its colons and slashes stand. What the two clients cut is
compared with the address that is meant; where they differ, some mark stands in the wrong part. The
cuts lose nothing but the marks, which gives the converse.
-/

namespace Lupine

open Foundation

structure Endpoint where
  host : List Char
  port : List Char
  tls : Bool
  deriving DecidableEq

/-- `DEFAULT_PORT`, or the port of a server that is reached over TLS. -/
def defaultPort (tls : Bool) : List Char := if tls then "443".toList else "14833".toList

/-! ## One entry

Both clients cut an entry in the same way. What differs is the scheme, and what they do with a part
that is missing. -/

/-- The host up to the first colon, and the port behind it. -/
def hostAndPort (tls : Bool) (token : List Char) : Endpoint :=
  let (host, port) := cutFirst ':' token
  ⟨host, port.getD (defaultPort tls), tls⟩

/-- An entry as `rpc_open` of the CUDA client reads it. -/
def rpcOpenEndpoint (token : List Char) : Endpoint :=
  if "https://".toList <+: token then hostAndPort true (token.drop 8)
  else if "http://".toList <+: token then hostAndPort false (token.drop 7)
  else hostAndPort false token

/-- An entry with a host and a port. -/
def Endpoint.usable (endpoint : Endpoint) : Option Endpoint :=
  if endpoint.host = [] ∨ endpoint.port = [] then none else some endpoint

/-- An entry as `open_connection` of the NVML client reads it, or nothing if it goes on to the
next. -/
def openConnectionEndpoint (token : List Char) : Option Endpoint :=
  if token = [] then none
  else if "https://".toList <+: token then (hostAndPort true (token.drop 8)).usable
  else if "http://".toList <+: token then (hostAndPort false (token.drop 7)).usable
  else if "://".toList <:+: token ∨ "http:".toList <+: token ∨ "https:".toList <+: token then none
  else (hostAndPort false token).usable

/-! ## The list

The loops stop at the 16th connection, the NVML client only after it has connected once more. -/

/-- What `strsep` finds in the configuration. Neither client looks into an empty one. -/
def serverTokens (configuration : List Char) : List (List Char) :=
  if configuration = [] then [] else configuration.splitOn ','

/-- `conns`. -/
def maxConnections : ℕ := 16

/-- The loop of `rpc_open`, with the connections that are made. -/
def rpcOpenLoop (reachable : Endpoint → Bool) : List (List Char) → List Endpoint → List Endpoint
  | [], conns => conns
  | token :: tokens, conns =>
    if maxConnections ≤ conns.length then conns
    else if reachable (rpcOpenEndpoint token) then
      rpcOpenLoop reachable tokens (conns ++ [rpcOpenEndpoint token])
    else rpcOpenLoop reachable tokens conns

/-- The loop of `open_connection`. That there is no room is seen only after connecting. -/
def openConnectionLoop (reachable : Endpoint → Bool) :
    List (List Char) → List Endpoint → List Endpoint
  | [], conns => conns
  | token :: tokens, conns =>
    match openConnectionEndpoint token with
    | none => openConnectionLoop reachable tokens conns
    | some endpoint =>
      if reachable endpoint then
        if maxConnections ≤ conns.length then conns
        else openConnectionLoop reachable tokens (conns ++ [endpoint])
      else openConnectionLoop reachable tokens conns

/-- The connections of the CUDA client. -/
def rpcOpen (reachable : Endpoint → Bool) (configuration : List Char) : List Endpoint :=
  rpcOpenLoop reachable (serverTokens configuration) []

/-- The connections of the NVML client. -/
def openConnection (reachable : Endpoint → Bool) (configuration : List Char) : List Endpoint :=
  openConnectionLoop reachable (serverTokens configuration) []

theorem append_take_room {conns : List Endpoint} (endpoint : Endpoint) (rest : List Endpoint)
    (h : ¬maxConnections ≤ conns.length) :
    conns ++ [endpoint] ++ rest.take (maxConnections - (conns ++ [endpoint]).length) =
      conns ++ (endpoint :: rest).take (maxConnections - conns.length) := by
  obtain ⟨room, hroom⟩ := Nat.exists_eq_add_of_lt (Nat.lt_of_not_le h)
  have hbefore : maxConnections - conns.length = room + 1 := by omega
  have hafter : maxConnections - (conns ++ [endpoint]).length = room := by
    rw [List.length_append, List.length_singleton]
    omega
  rw [hbefore, hafter, List.take_succ_cons, List.append_assoc, List.singleton_append]

theorem rpcOpenLoop_eq (reachable : Endpoint → Bool) (tokens : List (List Char))
    (conns : List Endpoint) : rpcOpenLoop reachable tokens conns = conns ++
      ((tokens.map rpcOpenEndpoint).filter reachable).take (maxConnections - conns.length) := by
  induction tokens generalizing conns with
  | nil => simp [rpcOpenLoop]
  | cons token tokens ih =>
    rw [rpcOpenLoop, List.map_cons]
    split_ifs with hroom hreach
    · rw [Nat.sub_eq_zero_of_le hroom, List.take_zero, List.append_nil]
    · rw [ih, List.filter_cons_of_pos hreach, append_take_room _ _ hroom]
    · rw [ih, List.filter_cons_of_neg hreach]

theorem openConnectionLoop_eq (reachable : Endpoint → Bool) (tokens : List (List Char))
    (conns : List Endpoint) : openConnectionLoop reachable tokens conns = conns ++
      ((tokens.filterMap openConnectionEndpoint).filter reachable).take
        (maxConnections - conns.length) := by
  induction tokens generalizing conns with
  | nil => simp [openConnectionLoop]
  | cons token tokens ih =>
    rw [openConnectionLoop]
    split
    · next hread => rw [ih, List.filterMap_cons_none hread]
    · next endpoint hread =>
      rw [List.filterMap_cons_some hread]
      split_ifs with hreach hroom
      · rw [Nat.sub_eq_zero_of_le hroom, List.take_zero, List.append_nil]
      · rw [ih, List.filter_cons_of_pos hreach, append_take_room _ _ hroom]
      · rw [ih, List.filter_cons_of_neg hreach]

def joinServers (servers : List (List Char)) : List Char := [','].intercalate servers

/-- Both clients read a configuration as the servers that are meant, entry by entry, and whichever
of these can be reached, each connection has one number in both. -/
structure AddressedAs (configuration : List Char) (meant : List (Option Endpoint)) : Prop where
  cuda : (serverTokens configuration).map (some ∘ rpcOpenEndpoint) = meant
  nvml : ((serverTokens configuration).filterMap openConnectionEndpoint).map some = meant
  connections : ∀ reachable : Endpoint → Bool,
    rpcOpen reachable configuration = openConnection reachable configuration

/-- Both clients read an entry as the server that is meant. -/
structure CarriedOver (address : List Char) (meant : Option Endpoint) : Prop where
  comma : ',' ∉ address
  cuda : some (rpcOpenEndpoint address) = meant
  nvml : openConnectionEndpoint address = meant

theorem connections_eq {configuration : List Char} {meant : List (Option Endpoint)}
    (hcuda : (serverTokens configuration).map (some ∘ rpcOpenEndpoint) = meant)
    (hnvml : ((serverTokens configuration).filterMap openConnectionEndpoint).map some = meant)
    (reachable : Endpoint → Bool) :
    rpcOpen reachable configuration = openConnection reachable configuration := by
  have hread : (serverTokens configuration).map rpcOpenEndpoint =
      (serverTokens configuration).filterMap openConnectionEndpoint := by
    refine List.map_injective_iff.mpr (Option.some_injective _) ?_
    rw [List.map_map, hcuda, hnvml]
  rw [rpcOpen, openConnection, rpcOpenLoop_eq, openConnectionLoop_eq, hread]

theorem serverTokens_joinServers {servers : List (List Char)} (hne : [] ∉ servers)
    (h : ∀ server ∈ servers, ',' ∉ server) : serverTokens (joinServers servers) = servers := by
  rcases eq_or_ne servers [] with rfl | hservers
  · rfl
  · have hsplit := List.splitOn_intercalate ',' h hservers
    rw [serverTokens, joinServers, if_neg, hsplit]
    intro hnil
    rw [hnil, List.splitOn_nil] at hsplit
    exact hne (hsplit ▸ List.mem_singleton_self _)

theorem openConnectionEndpoint_nil : openConnectionEndpoint [] = none := rfl

/-- **Entry by entry.** A list is understood if every entry is, and it is the entries that are read
wrong that make it misunderstood. -/
theorem addressedAs_iff {ι : Type*} (entries : List ι) (address : ι → List Char)
    (meant : ι → Option Endpoint) :
    AddressedAs (joinServers (entries.map address)) (entries.map meant) ↔
      ∀ entry ∈ entries, CarriedOver (address entry) (meant entry) := by
  constructor
  · intro h entry hentry
    have hne : entries.map address ≠ [] := by
      rw [Ne, List.map_eq_nil_iff]
      exact List.ne_nil_of_mem hentry
    -- a comma in an address would give more tokens than there are entries
    have hlength := congrArg List.length h.cuda
    rw [List.length_map, List.length_map, ← List.length_map address] at hlength
    have htokens : serverTokens (joinServers (entries.map address)) =
        (joinServers (entries.map address)).splitOn ',' := by
      refine if_neg fun hnil ↦ ?_
      rw [hnil] at hlength
      exact hne (List.length_eq_zero_iff.mp hlength.symm)
    have hcomma := notMem_of_length_splitOn hne (htokens ▸ hlength)
    have hsplit : serverTokens (joinServers (entries.map address)) = entries.map address :=
      htokens.trans (List.splitOn_intercalate ',' hcomma hne)
    have hcuda := h.cuda
    rw [hsplit, List.map_map] at hcuda
    have hcuda := List.map_inj_left.mp hcuda entry hentry
    -- both clients have read as many addresses, so none was skipped
    have hnvml := h.nvml.trans h.cuda.symm
    rw [hsplit, ← List.map_map] at hnvml
    have hread := filterMap_eq_map_iff.mp
      (List.map_injective_iff.mpr (Option.some_injective _) hnvml) _
      (List.mem_map_of_mem hentry)
    exact ⟨hcomma _ (List.mem_map_of_mem hentry), hcuda, hread.trans hcuda⟩
  · intro h
    have hservers : ∀ server ∈ entries.map address,
        ',' ∉ server ∧ openConnectionEndpoint server = some (rpcOpenEndpoint server) := by
      intro server hserver
      obtain ⟨entry, hentry, rfl⟩ := List.mem_map.mp hserver
      exact ⟨(h entry hentry).comma, (h entry hentry).nvml.trans (h entry hentry).cuda.symm⟩
    -- an empty address would be no token at all
    have hnil : [] ∉ entries.map address := fun hmem ↦
      nomatch openConnectionEndpoint_nil.symm.trans (hservers _ hmem).2
    have htokens := serverTokens_joinServers hnil fun server hserver ↦ (hservers server hserver).1
    have hcuda : (serverTokens (joinServers (entries.map address))).map (some ∘ rpcOpenEndpoint) =
        entries.map meant := by
      rw [htokens, List.map_map]
      exact List.map_inj_left.mpr fun entry hentry ↦ (h entry hentry).cuda
    have hnvml : ((serverTokens (joinServers (entries.map address))).filterMap
        openConnectionEndpoint).map some = entries.map meant := by
      rw [← hcuda, htokens, ← List.map_map]
      exact congrArg _ (filterMap_eq_map_iff.mpr fun server hserver ↦ (hservers server hserver).2)
    exact ⟨hcuda, hnvml, connections_eq hcuda hnvml⟩

/-! ## An address with a scheme

Nothing but a colon is lost when an entry is cut. -/

theorem usable_eq_some_iff {endpoint found : Endpoint} :
    endpoint.usable = some found ↔ endpoint.host ≠ [] ∧ endpoint.port ≠ [] ∧ endpoint = found := by
  rw [Endpoint.usable]
  split_ifs with h
  · exact ⟨fun h ↦ (nomatch h), fun h' ↦ (h.elim h'.1 h'.2.1).elim⟩
  · rw [not_or] at h
    rw [Option.some_inj, and_iff_right h.1, and_iff_right h.2]

theorem rpcOpenEndpoint_url {scheme : List Char} (h : IsHttp scheme) (rest : List Char) :
    rpcOpenEndpoint (scheme ++ "://".toList ++ rest) =
      hostAndPort (decide (scheme = "https".toList)) rest := by
  rcases h with rfl | rfl <;> rfl

theorem openConnectionEndpoint_url {scheme : List Char} (h : IsHttp scheme) (rest : List Char) :
    openConnectionEndpoint (scheme ++ "://".toList ++ rest) =
      (hostAndPort (decide (scheme = "https".toList)) rest).usable := by
  rcases h with rfl | rfl <;> rfl

theorem notMem_defaultPort {c : Char} (tls : Bool) (h : isMark c = true) : c ∉ defaultPort tls := by
  have hdefault : defaultPort tls = decimal (if tls then 443 else 14833) := by
    cases tls <;> rfl
  exact hdefault ▸ notMem_decimal _ h

theorem count_hostAndPort {c : Char} (tls : Bool) (token : List Char) (hmark : isMark c = true)
    (hcolon : c ≠ ':') :
    ((hostAndPort tls token).host ++ (hostAndPort tls token).port).count c = token.count c := by
  rcases cutFirst_cases ':' token with ⟨_, hcut⟩ | ⟨front, rest, rfl, _, hcut⟩
  · simp only [hostAndPort, hcut, Option.getD_none]
    rw [List.count_append, List.count_eq_zero.mpr (notMem_defaultPort tls hmark), Nat.add_zero]
  · simp only [hostAndPort, hcut, Option.getD_some]
    rw [List.count_append, List.count_append, List.count_cons_of_ne hcolon.symm]

/-! ## An address without a scheme

A name and a port have one colon between them, which stands in the same place however the text is
written. -/

theorem rpcOpenEndpoint_of_not_isUrl {address : List Char} (h : ¬isUrl address) :
    rpcOpenEndpoint address = hostAndPort false address := by
  rw [isUrl, not_or] at h
  rw [rpcOpenEndpoint, if_neg h.2, if_neg h.1]

theorem openConnectionEndpoint_of_not_isUrl {address : List Char} (h : ¬isUrl address) :
    openConnectionEndpoint address =
      if "://".toList <:+: address ∨ "http:".toList <+: address ∨ "https:".toList <+: address then
        none
      else (hostAndPort false address).usable := by
  rw [isUrl, not_or] at h
  rw [openConnectionEndpoint, if_neg h.2, if_neg h.1]
  rcases eq_or_ne address [] with rfl | hne
  · decide
  · rw [if_neg hne]

theorem append_colon_inj {front front' rest rest' : List Char} (hfront : ':' ∉ front)
    (hfront' : ':' ∉ front') (h : front ++ ':' :: rest = front' ++ ':' :: rest') :
    front = front' ∧ rest = rest' := by
  have hcut := cutFirst_append rest hfront
  rw [h, cutFirst_append rest' hfront', Prod.mk.injEq, Option.some_inj] at hcut
  exact ⟨hcut.1.symm, hcut.2.symm⟩

/-- What a URL would have to look like, where there is one colon. -/
theorem scheme_prefix_iff {scheme name : List Char} (port : List Char) (hscheme : ':' ∉ scheme)
    (hname : ':' ∉ name) : scheme ++ [':'] <+: name ++ ':' :: port ↔ name = scheme := by
  constructor
  · rintro ⟨rest, h⟩
    rw [List.append_assoc, List.singleton_append] at h
    exact (append_colon_inj hscheme hname h).1.symm
  · rintro rfl
    exact ⟨port, by rw [List.append_assoc, List.singleton_append]⟩

theorem colon_infix_iff {before after name port : List Char} (hname : ':' ∉ name)
    (hport : ':' ∉ port) :
    before ++ ':' :: after <:+: name ++ ':' :: port ↔ before <:+ name ∧ after <+: port := by
  constructor
  · rintro ⟨front, rest, h⟩
    have hsplit : front ++ before ++ ':' :: (after ++ rest) = name ++ ':' :: port := by
      rw [← h, List.append_assoc, List.append_assoc, List.append_assoc, List.cons_append]
    have hcount := congrArg (List.count ':') hsplit
    rw [List.count_append, List.count_cons_self, @List.count_append _ _ _ name,
      List.count_cons_self, List.count_eq_zero.mpr hname, List.count_eq_zero.mpr hport] at hcount
    have hfront : ':' ∉ front ++ before := List.count_eq_zero.mp (by omega)
    have hparts := append_colon_inj hfront hname hsplit
    exact ⟨⟨front, hparts.1⟩, ⟨rest, hparts.2⟩⟩
  · rintro ⟨⟨front, rfl⟩, rest, rfl⟩
    exact ⟨front, rest, by simp⟩

/-- A host name that both clients take for one. -/
def IsPlainName (name : List Char) : Prop :=
  name ≠ [] ∧ name ≠ "http".toList ∧ name ≠ "https".toList ∧ ',' ∉ name

instance IsPlainName.decidable (name : List Char) : Decidable (IsPlainName name) :=
  inferInstanceAs (Decidable (_ ∧ _ ∧ _ ∧ _))

/-- A port that both clients take for one behind a host name. -/
def IsPlainPort (port : List Char) : Prop := port ≠ [] ∧ ',' ∉ port ∧ ¬"//".toList <+: port

instance IsPlainPort.decidable (port : List Char) : Decidable (IsPlainPort port) :=
  inferInstanceAs (Decidable (_ ∧ _ ∧ _))

/-- **An address of a name and a port.** The CUDA client always reads it as it is meant. The NVML
client leaves it out when it is taken for another scheme or a part of it is missing. -/
theorem carriedOver_name_iff {name port : List Char} (hurl : ¬isUrl (name ++ ':' :: port))
    (hname : ':' ∉ name) (hport : ':' ∉ port) :
    CarriedOver (name ++ ':' :: port) (some ⟨name, port, false⟩) ↔
      IsPlainName name ∧ IsPlainPort port := by
  have hcut : hostAndPort false (name ++ ':' :: port) = ⟨name, port, false⟩ := by
    rw [hostAndPort, cutFirst_append port hname]
    rfl
  have hhttp := @scheme_prefix_iff "http".toList name port (by decide) hname
  have hslashes : "://".toList <:+: name ++ ':' :: port ↔ "//".toList <+: port :=
    (@colon_infix_iff [] "//".toList name port hname hport).trans
      (and_iff_right List.nil_suffix)
  have hhttps := @scheme_prefix_iff "https".toList name port (by decide) hname
  have hnvml : openConnectionEndpoint (name ++ ':' :: port) = some ⟨name, port, false⟩ ↔
      ¬"//".toList <+: port ∧ name ≠ "http".toList ∧ name ≠ "https".toList ∧ name ≠ [] ∧
        port ≠ [] := by
    rw [openConnectionEndpoint_of_not_isUrl hurl, hcut, Option.ite_none_left_eq_some,
      usable_eq_some_iff, not_or, not_or, hslashes, and_assoc, and_assoc]
    exact and_congr_right fun _ ↦ and_congr (not_congr hhttp) (and_congr (not_congr hhttps)
      (and_congr_right fun _ ↦ and_iff_left rfl))
  have hcomma : ',' ∉ name ++ ':' :: port ↔ ',' ∉ name ∧ ',' ∉ port := by
    simp
  constructor
  · intro h
    have ⟨hslash, hnhttp, hnhttps, hne, hpne⟩ := hnvml.mp h.nvml
    have ⟨hcname, hcport⟩ := hcomma.mp h.comma
    exact ⟨⟨hne, hnhttp, hnhttps, hcname⟩, hpne, hcport, hslash⟩
  · rintro ⟨⟨hne, hnhttp, hnhttps, hcname⟩, hpne, hcport, hslash⟩
    exact ⟨hcomma.mpr ⟨hcname, hcport⟩, by rw [rpcOpenEndpoint_of_not_isUrl hurl, hcut],
      hnvml.mpr ⟨hslash, hnhttp, hnhttps, hne, hpne⟩⟩

end Lupine
