import Vnidrop.Excepts
import Vnidrop.HonestOffers

/-! The relay addresses of a core: which lists `CoreNetworkConfig` accepts, and when it accepts
them once more as they are printed. -/
namespace Vnidrop.Network

open Excepts Imports Paths
open Offers (CoreRelayMode)

def maxCustomRelays : Nat := 8

def maxRelayUrlBytes : Nat := 2048

structure CoreNetworkConfig where
  mode : CoreRelayMode
  relayUrls : List Str
  deriving DecidableEq

/-- `RelayUrl` of the network library: its parser, its printer, and the parts of an address. -/
structure Urls (RelayUrl : Type) where
  fromStr : Str → Option RelayUrl
  toStr : RelayUrl → Str
  scheme : RelayUrl → Str
  hostStr : RelayUrl → Option Str
  port : RelayUrl → Option Nat
  username : RelayUrl → Str
  password : RelayUrl → Option Str
  query : RelayUrl → Option Str
  fragment : RelayUrl → Option Str
  path : RelayUrl → Str

/-! `IpAddr::from_str`, and which addresses are loopback. -/

/-- A decimal number up to 255, without leading zeros. -/
def octet (s : Str) : Option Nat :=
  let n := s.foldl (fun n c => 10 * n + (c.toNat - 48)) 0
  if 1 ≤ s.length ∧ s.length ≤ 3 ∧ s.all (·.isDigit) ∧ (s = ['0'] ∨ s.head? ≠ some '0') ∧ n ≤ 255 then some n
  else none

def ipv4 (s : Str) : Option (List Nat) :=
  let parts := s.splitOn '.'
  if parts.length = 4 then parts.mapM octet else none

def hexDigit (c : Char) : Option Nat :=
  if c.isDigit then some (c.toNat - 48)
  else if 'a' ≤ c ∧ c ≤ 'f' then some (c.toNat - 87)
  else if 'A' ≤ c ∧ c ≤ 'F' then some (c.toNat - 55)
  else none

/-- Up to four hexadecimal digits. -/
def group (s : Str) : Option Nat :=
  if 1 ≤ s.length ∧ s.length ≤ 4 then s.foldlM (fun n c => (hexDigit c).map (16 * n + ·)) 0 else none

/-- The last part may be an IPv4 address, which is two groups. -/
def groups : List Str → Option (List Nat)
  | [] => some []
  | [last] =>
    match group last,ipv4 last with
    | some n,_ => some [n]
    | none,some [a,b,c,d] => some [256 * a + b,256 * c + d]
    | none,_ => none
  | part :: rest => do
    let n ← group part
    let rest ← groups rest
    return n :: rest

/-- What stands before and after the first pair of colons. -/
def elided : Str → Option (Str × Str)
  | ':' :: ':' :: rest => some ([],rest)
  | c :: rest => (elided rest).map fun r => (c :: r.1,r.2)
  | [] => none

def parts (s : Str) : List Str := if s = [] then [] else s.splitOn ':'

def ipv6 (s : Str) : Option (List Nat) :=
  match elided s with
  | none => (groups (s.splitOn ':')).filter (·.length = 8)
  | some (head,tail) => do
    let head ← (parts head).mapM group
    let tail ← groups (parts tail)
    if head.length + tail.length ≤ 7 then
      return head ++ List.replicate (8 - head.length - tail.length) 0 ++ tail
    else none

/-- `parse::<IpAddr>` and `is_loopback`. -/
def isLoopback (s : Str) : Bool :=
  match ipv4 s with
  | some address => address.head? = some 127
  | none => ipv6 s = some [0,0,0,0,0,0,0,1]

/-- `char::is_control`. -/
def isControl (c : Char) : Bool := c.toNat ≤ 31 || (127 ≤ c.toNat && c.toNat ≤ 159)

section Validation

variable {RelayUrl : Type} (lib : Urls RelayUrl)

/-- A host that is this machine. -/
def loopbackHost (host : Str) : Bool :=
  host.map Char.toLower = "localhost".toList ||
    isLoopback ((host.dropWhile (· = '[')).reverse.dropWhile (· = ']')).reverse

def secure (url : RelayUrl) : Bool := lib.scheme url = "https".toList

def loopbackHttp (url : RelayUrl) : Bool := lib.scheme url = "http".toList && (lib.hostStr url).any loopbackHost

/-- The checks of one address, but for the one that it has not been seen. -/
def validateRelayUrl (index : Nat) (value : Str) : Except String RelayUrl :=
  if value = [] ∨ value.any (fun c => isWhitespace c || isControl c) then
    .error "relay URL must be non-empty and contain no whitespace or control characters"
  else if maxRelayUrlBytes < utf8Len value then
    .error ("relay URL is " ++ toString (utf8Len value) ++ " bytes, limit is " ++ toString maxRelayUrlBytes)
  else
    match lib.fromStr value with
    | none => .error ("invalid relay URL at position " ++ toString (index + 1))
    | some url =>
      if ¬secure lib url ∧ ¬loopbackHttp lib url then
        .error "relay URL must use HTTPS; HTTP is allowed only for loopback development relays"
      else if lib.hostStr url = none then .error "relay URL must include a host"
      else if lib.port url = some 0 then .error "relay URL port must be between 1 and 65535"
      else if '@' ∈ value ∨ lib.username url ≠ [] ∨ lib.password url ≠ none then
        .error "relay URL must not contain credentials"
      else if lib.query url ≠ none ∨ lib.fragment url ≠ none then
        .error "relay URL must not contain a query or fragment"
      else if lib.path url ≠ ['/'] then .error "relay URL must not contain a path"
      else .ok url

variable [DecidableEq RelayUrl]

/-- The loop over the addresses; `validated` is what has been seen. -/
def validateRelayUrls (index : Nat) (validated : List RelayUrl) : List Str → Except String (List RelayUrl)
  | [] => .ok validated
  | value :: rest => do
    let url ← validateRelayUrl lib index value
    if url ∈ validated then .error "custom relay URLs must not contain duplicates"
    else validateRelayUrls (index + 1) (validated ++ [url]) rest

/-- `CoreNetworkConfig::validated_relay_urls`. -/
def CoreNetworkConfig.validatedRelayUrls (config : CoreNetworkConfig) : Except String (List RelayUrl) :=
  match config.mode with
  | .automatic =>
    if config.relayUrls ≠ [] then .error "automatic relay mode must not include custom relay URLs" else .ok []
  | .localOnly =>
    if config.relayUrls ≠ [] then .error "local-only relay mode must not include custom relay URLs" else .ok []
  | .strictCustom | .customWithDirectFallback =>
    if config.relayUrls = [] then .error "custom relay mode requires at least one relay URL"
    else if maxCustomRelays < config.relayUrls.length then
      .error ("custom relay mode supports at most " ++ toString maxCustomRelays ++ " relay URLs")
    else validateRelayUrls lib 0 [] config.relayUrls

end Validation

section Acceptance

variable {RelayUrl : Type} {lib : Urls RelayUrl} {value : Str} {url : RelayUrl} {urls us : List RelayUrl}
  {values : List Str}

/-- What is checked of the parsed address alone. -/
structure Usable (lib : Urls RelayUrl) (url : RelayUrl) : Prop where
  scheme : secure lib url = true ∨ loopbackHttp lib url = true
  host : lib.hostStr url ≠ none
  port : lib.port url ≠ some 0
  username : lib.username url = []
  password : lib.password url = none
  query : lib.query url = none
  fragment : lib.fragment url = none
  path : lib.path url = ['/']

/-- What is checked of its text alone. -/
structure Tidy (value : Str) : Prop where
  nonempty : value ≠ []
  plain : ∀ c ∈ value, isWhitespace c = false ∧ isControl c = false
  credentials : '@' ∉ value

structure Accepts (lib : Urls RelayUrl) (value : Str) (url : RelayUrl) : Prop where
  tidy : Tidy value
  size : utf8Len value ≤ maxRelayUrlBytes
  parsed : lib.fromStr value = some url
  usable : Usable lib url

theorem accepts_iff {index : Nat} : validateRelayUrl lib index value = .ok url ↔ Accepts lib value url := by
  unfold validateRelayUrl
  constructor
  · intro accepted
    split at accepted
    · cases accepted
    · rename_i text
      split at accepted
      · cases accepted
      · rename_i size
        split at accepted
        · cases accepted
        · rename_i parsed
          split_ifs at accepted with scheme host port credentials extras path
          cases accepted
          simp only [List.any_eq_true,Bool.or_eq_true,not_or,not_exists,not_and] at text
          simp only [not_or,not_not] at credentials extras path
          refine ⟨⟨text.1,fun c there => ?_,credentials.1⟩,Nat.le_of_not_lt size,parsed,?_⟩
          · obtain ⟨white,control⟩ := text.2 c there
            exact ⟨by simpa using white,by simpa using control⟩
          · refine ⟨?_,host,port,credentials.2.1,credentials.2.2,extras.1,extras.2,path⟩
            by_contra neither
            exact scheme (not_or.mp neither)
  · rintro ⟨⟨nonempty,plain,credentials⟩,size,parsed,usable⟩
    have text : ¬(value = [] ∨ value.any (fun c => isWhitespace c || isControl c) = true) := by
      simp only [List.any_eq_true,not_or,not_exists,not_and]
      refine ⟨nonempty,fun c there => ?_⟩
      rw [(plain c there).1,(plain c there).2]
      decide
    rw [if_neg text,if_neg (Nat.not_lt_of_le size),parsed]
    dsimp only
    rw [if_neg (fun neither => neither.1 (usable.scheme.resolve_right neither.2)),if_neg usable.host,if_neg usable.port,
      if_neg (by simp [credentials,usable.username,usable.password]),
      if_neg (by simp [usable.query,usable.fragment]),if_neg (not_not_intro usable.path)]

theorem accepted_usable (accepted : List.Forall₂ (Accepts lib) values us) (there : url ∈ us) : Usable lib url := by
  induction accepted with
  | nil => cases there
  | cons first _ ih =>
    rcases List.mem_cons.mp there with rfl | later
    · exact first.usable
    · exact ih later

variable [DecidableEq RelayUrl]

/-- The loop accepts addresses that are accepted one by one and that differ. -/
theorem validateRelayUrls_iff {index : Nat} {validated out : List RelayUrl} (distinct : validated.Nodup) :
    validateRelayUrls lib index validated values = .ok out ↔
      ∃ us, List.Forall₂ (Accepts lib) values us ∧ out = validated ++ us ∧ (validated ++ us).Nodup := by
  induction values generalizing index validated with
  | nil =>
    simp only [validateRelayUrls,Except.ok.injEq,List.forall₂_nil_left_iff]
    constructor
    · rintro rfl
      exact ⟨[],rfl,(List.append_nil _).symm,by rwa [List.append_nil]⟩
    · rintro ⟨_,rfl,rfl,_⟩
      exact (List.append_nil _).symm
  | cons value rest ih =>
    simp only [validateRelayUrls,bind_ok,List.forall₂_cons_left_iff,accepts_iff]
    constructor
    · rintro ⟨url,accepted,step⟩
      split at step
      · cases step
      · rename_i new
        have distinct' : (validated ++ [url]).Nodup := List.nodup_append.mpr ⟨distinct,List.nodup_singleton _,by
          rintro a there b here rfl
          rw [List.mem_singleton] at here
          exact new (here ▸ there)⟩
        obtain ⟨us,rest,rfl,whole⟩ := (ih distinct').mp step
        exact ⟨url :: us,⟨url,us,accepted,rest,rfl⟩,by simp,by simpa using whole⟩
    · rintro ⟨_,⟨url,us,accepted,rest,rfl⟩,rfl,whole⟩
      have new : url ∉ validated := fun there =>
        (List.nodup_append.mp whole).2.2 url there url List.mem_cons_self rfl
      have whole' : (validated ++ [url] ++ us).Nodup := by simpa using whole
      refine ⟨url,accepted,?_⟩
      rw [if_neg new]
      exact (ih (List.nodup_append.mp whole').1).mpr ⟨us,rest,by simp,whole'⟩

/-- The printer writes what the parser reads, in plain characters; only credentials have an `@`. -/
structure Prints (lib : Urls RelayUrl) (url : RelayUrl) : Prop where
  parsed : lib.fromStr (lib.toStr url) = some url
  nonempty : lib.toStr url ≠ []
  plain : ∀ c ∈ lib.toStr url, isWhitespace c = false ∧ isControl c = false
  credentials : Usable lib url → '@' ∉ lib.toStr url

theorem usable_of_validated {config : CoreNetworkConfig} (valid : config.validatedRelayUrls lib = .ok urls) :
    (∀ url ∈ urls, Usable lib url) ∧ urls.Nodup ∧ urls.length ≤ maxCustomRelays := by
  have custom (checked : ¬maxCustomRelays < config.relayUrls.length)
      (valid : validateRelayUrls lib 0 [] config.relayUrls = .ok urls) :
      (∀ url ∈ urls, Usable lib url) ∧ urls.Nodup ∧ urls.length ≤ maxCustomRelays := by
    obtain ⟨us,accepted,rfl,distinct⟩ := (validateRelayUrls_iff List.nodup_nil).mp valid
    rw [List.nil_append] at distinct
    refine ⟨fun url there => ?_,distinct,accepted.length_eq ▸ Nat.le_of_not_lt checked⟩
    exact accepted_usable accepted there
  unfold CoreNetworkConfig.validatedRelayUrls at valid
  cases mode : config.mode with
  | automatic | localOnly =>
    simp only [mode] at valid
    split at valid
    · cases valid
    · cases valid
      exact ⟨fun _ there => (by cases there),List.nodup_nil,Nat.zero_le _⟩
  | strictCustom | customWithDirectFallback =>
    simp only [mode] at valid
    split_ifs at valid with empty count
    exact custom count valid

omit [DecidableEq RelayUrl] in
/-- Printed addresses are read back. -/
theorem printed_same (prints : ∀ url ∈ urls, Prints lib url)
    (accepted : List.Forall₂ (fun url u => Accepts lib (lib.toStr url) u) urls us) : us = urls := by
  induction accepted with
  | nil => rfl
  | @cons url u urls us first _ ih =>
    have same : url = u := Option.some.inj ((prints url List.mem_cons_self).parsed.symm.trans first.parsed)
    rw [same,ih fun url there => prints url (List.mem_cons_of_mem _ there)]

/-- The printed addresses are accepted when they are short enough. -/
theorem printed_accepted_iff {config : CoreNetworkConfig} (valid : config.validatedRelayUrls lib = .ok urls)
    (prints : ∀ url ∈ urls, Prints lib url) (some' : urls ≠ []) :
    CoreNetworkConfig.validatedRelayUrls lib ⟨.strictCustom,urls.map lib.toStr⟩ = .ok us ↔
      us = urls ∧ ∀ url ∈ urls, utf8Len (lib.toStr url) ≤ maxRelayUrlBytes := by
  obtain ⟨usable,distinct,count⟩ := usable_of_validated valid
  have nonempty : urls.map lib.toStr ≠ [] := fun none => some' (List.map_eq_nil_iff.mp none)
  have few : ¬maxCustomRelays < (urls.map lib.toStr).length := by
    rw [List.length_map]
    exact Nat.not_lt_of_le count
  unfold CoreNetworkConfig.validatedRelayUrls
  dsimp only
  rw [if_neg nonempty,if_neg few,validateRelayUrls_iff List.nodup_nil]
  simp only [List.nil_append,List.forall₂_map_left_iff]
  constructor
  · rintro ⟨us,accepted,rfl,_⟩
    obtain rfl := printed_same prints accepted
    refine ⟨rfl,fun url there => ?_⟩
    exact (List.forall₂_same.mp accepted url there).size
  · rintro ⟨rfl,short⟩
    refine ⟨us,List.forall₂_same.mpr fun url there => ?_,rfl,distinct⟩
    obtain ⟨parsed,nonempty,plain,credentials⟩ := prints url there
    exact ⟨⟨nonempty,plain,credentials (usable url there)⟩,short url there,parsed,usable url there⟩

end Acceptance

end Vnidrop.Network
