import Steward.AgentTargets

/-!
# The key of the rate limits

Requests are counted under the address that `extractIP` finds after the `RealIP` middleware.
Behind a trusted proxy this is the first entry of `X-Forwarded-For`, which is the client's own
header when it has sent one. So the key is the address of the client whatever it sends only
where it reaches the server itself, from an address that is neither trusted nor the loopback.
-/

namespace Steward.RateLimitKey

open Targets Text List

/-! ## Addresses as texts -/

/-- `net.ParseIP` and `IP.String` on addresses of sixteen bytes. -/
structure IPTexts where
  parseIP : String → Option (BitVec 128)
  string : BitVec 128 → String
  parse_string : ∀ a, parseIP (string a) = some a
  string_ne : ∀ a, string a ≠ ""
  string_chars : ∀ a, ∀ c ∈ (string a).toList, c ∈ "0123456789abcdef.:".toList

/-- Host and port around the last colon; a host in brackets may have colons of its own. -/
def splitHostPort (hostport : String) : Option (String × String) :=
  let cs := hostport.toList
  let port := (cs.reverse.takeWhile (· ≠ ':')).reverse
  match cs.reverse.dropWhile (· ≠ ':') with
  | [] => none
  | _ :: rest =>
    let front := rest.reverse
    match cs with
    | '[' :: inner =>
      let host := inner.takeWhile (· ≠ ']')
      if front = '[' :: (host ++ [']']) ∧ '[' ∉ inner ∧ ']' ∉ port then
        some (String.ofList host, String.ofList port)
      else none
    | _ =>
      if ':' ∉ front ∧ '[' ∉ cs ∧ ']' ∉ cs then some (String.ofList front, String.ofList port)
      else none

def joinHostPort (host port : String) : String :=
  if ':' ∈ host.toList then "[" ++ host ++ "]:" ++ port else host ++ ":" ++ port

/-- Also the reading of `RemoteAddr` in `extractIP`. -/
def hostFromAddr (addr : String) : String :=
  match splitHostPort addr with
  | some (host, _) => host
  | none => addr

def portOf (addr : String) : String :=
  match splitHostPort addr with
  | some (_, port) => port
  | none => "80"

/-! ## The two middlewares -/

/-- The values of the headers that are read. -/
structure Headers where
  forwardedFor : List String := []
  realIp : List String := []
  deriving DecidableEq

/-- `Header.Get`: the first value, or the empty text. -/
def get (values : List String) : String := values.headD ""

structure Request where
  remoteAddr : String
  headers : Headers

/-- The leftmost entry of a list of addresses. -/
def leftmost (xff : String) : String := Text.trimSpace ((Text.split xff ',').headD "")

section Server

variable (lib : IPTexts) (trusted : List IPNet)

def anyCIDRContains (ip : String) : Bool :=
  match lib.parseIP ip with
  | none => false
  | some parsed => trusted.any (·.contains (.sixteen parsed))

variable (r : Request)

def trustedClientIP : String :=
  let peerIP := hostFromAddr r.remoteAddr
  if peerIP = "" then ""
  else if !anyCIDRContains lib trusted peerIP then ""
  else
    let xff := get r.headers.forwardedFor
    if xff = "" then ""
    else if leftmost xff = "" then ""
    else match lib.parseIP (leftmost xff) with
      | some ip => lib.string ip
      | none => ""

def realIP : Request :=
  if trusted = [] then r
  else
    let ip := trustedClientIP lib trusted r
    if ip ≠ "" then { r with remoteAddr := joinHostPort ip (portOf r.remoteAddr) } else r

def isLocal (host : String) : Bool := host = "127.0.0.1" || host = "::1"

def extractIP : String :=
  let remoteIP := hostFromAddr r.remoteAddr
  let xff := get r.headers.forwardedFor
  let rip := get r.headers.realIp
  if isLocal remoteIP then
    if xff ≠ "" ∧ leftmost xff ≠ "" then leftmost xff
    else if rip ≠ "" then rip
    else remoteIP
  else remoteIP

def key : String := extractIP (realIP lib trusted r)

end Server

/-! ## Proxies -/

section Proxies

variable (lib : IPTexts)

/-- A proxy appends the address of its peer. -/
def forward (peer : BitVec 128) (h : Headers) : Headers :=
  { h with forwardedFor := [Text.join ", " (h.forwardedFor ++ [lib.string peer])] }

/-- The last peer of a chain of proxies, and the headers that it passes on. -/
def through : BitVec 128 → Headers → List (BitVec 128) → BitVec 128 × Headers
  | peer, h, [] => (peer, h)
  | peer, h, proxy :: rest => through proxy (forward lib peer h) rest

/-- The request as it arrives at the server from a client behind a chain of proxies. -/
def arrival (client : BitVec 128) (port : Nat) (chain : List (BitVec 128)) (h : Headers) :
    Request :=
  let last := through lib client h chain
  ⟨joinHostPort (lib.string last.1) (Text.decimal port), last.2⟩

end Proxies

variable {lib : IPTexts} {trusted : List IPNet}

abbrev Trusted (lib : IPTexts) (trusted : List IPNet) (a : BitVec 128) : Prop :=
  anyCIDRContains lib trusted (lib.string a) = true

abbrev Local (lib : IPTexts) (a : BitVec 128) : Prop := isLocal (lib.string a) = true

variable {a : BitVec 128}

theorem string_inj {b : BitVec 128} (h : lib.string a = lib.string b) : a = b := by
  have hparse := lib.parse_string a
  rw [h, lib.parse_string] at hparse
  exact (Option.some.inj hparse).symm

variable {c : Char}

theorem string_not_mem (h : c ∉ "0123456789abcdef.:".toList) (a : BitVec 128) :
    c ∉ (lib.string a).toList := fun hc => h (lib.string_chars a c hc)

/-- A number of a port stands behind the colon as it is. -/
theorem decimal_not_mem (h : c.isDigit = false) (n : Nat) : c ∉ (decimal n).toList := by
  intro hc
  rw [isDigit_of_mem_decimal hc] at h
  cases h

theorem split_last_colon {f port : List Char} (h : ':' ∉ port) :
    (((f ++ ':' :: port).reverse.takeWhile (· ≠ ':')).reverse = port) ∧
      (f ++ ':' :: port).reverse.dropWhile (· ≠ ':') = ':' :: f.reverse := by
  have hport : ∀ c ∈ port.reverse, decide (c ≠ ':') = true := fun c hc =>
    decide_eq_true fun he => h (he ▸ mem_reverse.mp hc)
  rw [reverse_append, reverse_cons, append_assoc, singleton_append]
  constructor
  · rw [takeWhile_append_of_pos hport]
    simp
  · rw [dropWhile_append_of_pos hport]
    simp

theorem splitHostPort_join {host port : String} (hhost : '[' ∉ host.toList ∧ ']' ∉ host.toList)
    (hport : ':' ∉ port.toList ∧ '[' ∉ port.toList ∧ ']' ∉ port.toList) :
    splitHostPort (joinHostPort host port) = some (host, port) := by
  unfold joinHostPort
  split
  · next hcolon =>
    have hchars : ("[" ++ host ++ "]:" ++ port).toList =
        '[' :: (host.toList ++ [']'] ++ ':' :: port.toList) := by simp
    obtain ⟨htake, hdrop⟩ := split_last_colon (f := '[' :: (host.toList ++ [']'])) hport.1
    rw [cons_append] at htake hdrop
    have hinner : (host.toList ++ [']'] ++ ':' :: port.toList).takeWhile (· ≠ ']') =
        host.toList := by
      have hopen : ∀ c ∈ host.toList, decide (c ≠ ']') = true := fun c hc =>
        decide_eq_true fun he => hhost.2 (he ▸ hc)
      rw [append_assoc, takeWhile_append_of_pos hopen]
      simp
    unfold splitHostPort
    simp only [hchars, htake, hdrop, reverse_reverse, hinner, true_and]
    rw [if_pos ⟨by simp [hhost.1, hport.2.1], hport.2.2⟩]
    simp
  · next hcolon =>
    have hchars : (host ++ ":" ++ port).toList = host.toList ++ ':' :: port.toList := by simp
    obtain ⟨htake, hdrop⟩ := split_last_colon (f := host.toList) hport.1
    unfold splitHostPort
    simp only [hchars, htake, hdrop, reverse_reverse]
    split
    · next inner hinner =>
      have hmem : '[' ∈ host.toList ++ ':' :: port.toList := hinner ▸ mem_cons_self
      simp [hhost.1, hport.2.1] at hmem
    · rw [if_pos ⟨hcolon, by simp [hhost.1, hport.2.1], by simp [hhost.2, hport.2.2]⟩]
      simp

/-- What the server reads from the address of a peer. -/
theorem splitHostPort_peer (a : BitVec 128) (n : Nat) :
    splitHostPort (joinHostPort (lib.string a) (decimal n)) =
      some (lib.string a, decimal n) :=
  splitHostPort_join ⟨string_not_mem (by decide) a, string_not_mem (by decide) a⟩
    ⟨decimal_not_mem (by decide) n, decimal_not_mem (by decide) n, decimal_not_mem (by decide) n⟩

theorem hostFromAddr_peer (a : BitVec 128) (n : Nat) :
    hostFromAddr (joinHostPort (lib.string a) (decimal n)) = lib.string a := by
  rw [hostFromAddr, splitHostPort_peer]

/-! ## The first entry -/

theorem isSpace_string (h : c ∈ (lib.string a).toList) : isSpace c = false := by
  have hplain : "0123456789abcdef.:".toList.all (fun c => !isSpace c) = true := by decide
  simpa using all_eq_true.mp hplain c (lib.string_chars a c h)

theorem split_join_head {x : String} (h : ',' ∉ x.toList) (more : List String) :
    (split (join ", " (x :: more)) ',').headD "" = x := by
  rw [split, join, String.toList_intercalate]
  cases more with
  | nil =>
    rw [map_singleton, intercalate_singleton, splitChars_of_not_mem h]
    simp
  | cons y more =>
    change (map _ (splitChars ',' (x.toList ++ ',' :: _))).headD "" = x
    rw [splitChars_append h]
    simp

theorem leftmost_join (lib : IPTexts) (a : BitVec 128) (more : List String) :
    leftmost (join ", " (lib.string a :: more)) = lib.string a := by
  rw [leftmost, split_join_head (string_not_mem (by decide) a),
    trimSpace_of_no_space fun c hc => isSpace_string hc]

theorem join_join (x : String) (more ys : List String) :
    join ", " (join ", " (x :: more) :: ys) = join ", " (x :: (more ++ ys)) := by
  unfold join
  rw [← String.toList_inj]
  simp only [String.toList_intercalate, map_cons, map_append]
  generalize map String.toList more = ms
  generalize map String.toList ys = zs
  generalize x.toList = c
  induction ms generalizing c with
  | nil => simp
  | cons m ms ih =>
    rw [cons_append, intercalate_cons_cons, intercalate_cons_cons, ← ih m]
    cases zs with
    | nil => simp
    | cons z zs => simp [intercalate_cons_cons]

/-- Behind a chain of proxies the header starts with the first entry of the client, or with its
address. -/
theorem through_spec (lib : IPTexts) {chain : List (BitVec 128)} (hne : chain ≠ [])
    (client : BitVec 128) (h : Headers) :
    (through lib client h chain).1 ∈ chain ∧
      ∃ more, (through lib client h chain).2.forwardedFor =
        [join ", " (h.forwardedFor.headD (lib.string client) :: more)] := by
  induction chain generalizing client h with
  | nil => exact absurd rfl hne
  | cons proxy rest ih =>
    have hforward : ∃ more, (forward lib client h).forwardedFor =
        [join ", " (h.forwardedFor.headD (lib.string client) :: more)] := by
      cases hsent : h.forwardedFor with
      | nil => exact ⟨[], by simp [forward, hsent]⟩
      | cons first others => exact ⟨others ++ [lib.string client], by simp [forward, hsent]⟩
    rw [through]
    by_cases hrest : rest = []
    · subst hrest
      exact ⟨mem_cons_self, hforward⟩
    · obtain ⟨hlast, more, hmore⟩ := ih hrest proxy (forward lib client h)
      obtain ⟨before, hbefore⟩ := hforward
      refine ⟨mem_cons_of_mem _ hlast, before ++ more, ?_⟩
      rw [hmore, hbefore, headD_cons, join_join]

/-! ## The key -/

section Key

variable {peer : BitVec 128} {port : Nat} {h : Headers}

def ofPeer (lib : IPTexts) (peer : BitVec 128) (port : Nat) (h : Headers) : Request :=
  ⟨joinHostPort (lib.string peer) (Text.decimal port), h⟩

theorem realIP_untrusted (hpeer : ¬ Trusted lib trusted peer) :
    realIP lib trusted (ofPeer lib peer port h) = ofPeer lib peer port h := by
  have hnone : trustedClientIP lib trusted (ofPeer lib peer port h) = "" := by
    rw [trustedClientIP, ofPeer, hostFromAddr_peer, if_neg (lib.string_ne peer),
      if_pos (by simpa [Trusted] using hpeer)]
  unfold realIP
  simp only [hnone, ne_eq, not_true_eq_false, if_false, ite_self]

theorem extractIP_ofPeer : extractIP (ofPeer lib peer port h) =
    if isLocal (lib.string peer) then
      if get h.forwardedFor ≠ "" ∧ leftmost (get h.forwardedFor) ≠ "" then
        leftmost (get h.forwardedFor)
      else if get h.realIp ≠ "" then get h.realIp
      else lib.string peer
    else lib.string peer := by
  unfold extractIP
  simp only [ofPeer, hostFromAddr_peer]

theorem extractIP_stranger (hpeer : ¬ Local lib peer) :
    extractIP (ofPeer lib peer port h) = lib.string peer := by
  rw [extractIP_ofPeer, if_neg hpeer]

variable {a : BitVec 128} {more : List String}

theorem entry_ne : join ", " (lib.string a :: more) ≠ "" := by
  intro hempty
  have hleft := leftmost_join lib a more
  rw [hempty] at hleft
  exact lib.string_ne a hleft.symm

section Sent

variable (hsent : get h.forwardedFor = Text.join ", " (lib.string a :: more))

include hsent

theorem extractIP_local (hpeer : Local lib peer) :
    extractIP (ofPeer lib peer port h) = lib.string a := by
  rw [extractIP_ofPeer, if_pos hpeer, hsent, leftmost_join, if_pos ⟨entry_ne, lib.string_ne a⟩]

theorem realIP_trusted (hpeer : Trusted lib trusted peer) :
    realIP lib trusted (ofPeer lib peer port h) = ofPeer lib a port h := by
  have hne : trusted ≠ [] := by
    rintro rfl
    simp [Trusted, anyCIDRContains, lib.parse_string] at hpeer
  have hclient : trustedClientIP lib trusted (ofPeer lib peer port h) = lib.string a := by
    unfold trustedClientIP
    simp only [ofPeer, hostFromAddr_peer, hsent, leftmost_join, lib.parse_string]
    rw [if_neg (lib.string_ne peer), if_neg (by simpa [Trusted] using hpeer), if_neg entry_ne,
      if_neg (lib.string_ne a)]
  unfold realIP
  simp only [hclient]
  rw [if_neg hne, if_pos (lib.string_ne a)]
  simp only [ofPeer, portOf, splitHostPort_peer]

/-- A peer that is trusted or local passes on the first entry. -/
theorem key_forwarded (hpeer : Trusted lib trusted peer ∨ Local lib peer) :
    key lib trusted (ofPeer lib peer port h) = lib.string a := by
  by_cases htrusted : Trusted lib trusted peer
  · rw [key, realIP_trusted hsent htrusted]
    by_cases hlocal : Local lib a
    · exact extractIP_local hsent hlocal
    · exact extractIP_stranger hlocal
  · rw [key, realIP_untrusted htrusted]
    exact extractIP_local hsent (hpeer.resolve_left htrusted)

end Sent

/-- Without the headers a peer is counted under its own address. -/
theorem key_plain (hsent : h.forwardedFor = []) (hreal : Local lib peer → h.realIp = []) :
    key lib trusted (ofPeer lib peer port h) = lib.string peer := by
  have hget : get h.forwardedFor = "" := by rw [hsent]; rfl
  have hnone : trustedClientIP lib trusted (ofPeer lib peer port h) = "" := by
    unfold trustedClientIP
    simp only [ofPeer, hget, if_true, ite_self]
  have hsame : realIP lib trusted (ofPeer lib peer port h) = ofPeer lib peer port h := by
    unfold realIP
    simp only [hnone, ne_eq, not_true_eq_false, if_false, ite_self]
  rw [key, hsame]
  by_cases hlocal : Local lib peer
  · rw [extractIP_ofPeer, if_pos hlocal, if_neg fun h => h.1 hget, hreal hlocal,
      if_neg fun h => h rfl]
  · exact extractIP_stranger hlocal

end Key

/-- The key is the address of the client whatever it sends exactly where it reaches the server
itself and is neither trusted nor local; and without the headers that are read it always is. -/
theorem key_of_client_iff (lib : IPTexts) (trusted : List IPNet) (client : BitVec 128) (port : Nat)
    (chain : List (BitVec 128)) (hchain : ∀ proxy ∈ chain, Trusted lib trusted proxy) :
    ((∀ h, key lib trusted (arrival lib client port chain h) = lib.string client) ↔
      chain = [] ∧ ¬ Trusted lib trusted client ∧ ¬ Local lib client) ∧
    ∀ h, h.forwardedFor = [] → (chain = [] → Local lib client → h.realIp = []) →
      key lib trusted (arrival lib client port chain h) = lib.string client := by
  have hforged : ∀ h a more, (chain ≠ [] ∨ Trusted lib trusted client ∨ Local lib client) →
      h.forwardedFor = [join ", " (lib.string a :: more)] →
        key lib trusted (arrival lib client port chain h) = lib.string a := by
    intro h a more hpeer hsent
    by_cases hne : chain = []
    · subst hne
      exact key_forwarded (by rw [through, hsent]; rfl) (hpeer.resolve_left fun h => h rfl)
    · obtain ⟨hlast, others, hothers⟩ := through_spec lib hne client h
      rw [hsent, headD_cons, join_join] at hothers
      exact key_forwarded (by rw [hothers]; rfl) (.inl (hchain _ hlast))
  refine ⟨⟨fun hkey => ?_, ?_⟩, fun h hsent hreal => ?_⟩
  · -- another address in the header would be the key
    by_contra hnot
    have hpeer : chain ≠ [] ∨ Trusted lib trusted client ∨ Local lib client := by
      by_contra hnone
      rw [not_or, not_or, not_not] at hnone
      exact hnot hnone
    have hother := hforged ⟨[join ", " [lib.string (client + 1)]], []⟩ _ _ hpeer rfl
    rw [hkey] at hother
    have := string_inj hother
    simp at this
  · rintro ⟨rfl, htrusted, hlocal⟩ h
    exact (congrArg extractIP (realIP_untrusted htrusted)).trans (extractIP_stranger hlocal)
  · by_cases hne : chain = []
    · subst hne
      exact key_plain hsent (hreal rfl)
    · obtain ⟨hlast, more, hmore⟩ := through_spec lib hne client h
      rw [hsent] at hmore
      exact key_forwarded (by rw [hmore]; rfl) (.inl (hchain _ hlast))

/-! ### Forged keys -/

/-- IPv4 addresses with dots, other addresses as a number. -/
def sampleString (a : BitVec 128) : String :=
  if a.toNat / 2 ^ 32 = 0xffff then AgentTargets.dotted (a.setWidth 32) else Text.decimal a.toNat

def sampleParse (s : String) : Option (BitVec 128) :=
  match ipv4Parser.parseIP s with
  | some a => some a
  | none => (Text.digits s.toList).map (BitVec.ofNat 128)

theorem parseIPv4_dotted (a : BitVec 32) : parseIPv4 (AgentTargets.dotted a) = some a := by
  have hoctet : ∀ n < 256, octet (decimal n) = some n := by decide +kernel
  have hsplit : split (AgentTargets.dotted a) '.' =
      (AgentTargets.octets a).map decimal := by
    refine split_join (by simp [AgentTargets.octets]) fun t ht => ?_
    obtain ⟨n, -, rfl⟩ := mem_map.mp ht
    exact decimal_not_mem (by decide) n
  have hvalue : ((a.toNat / 2 ^ 24 * 256 + a.toNat / 2 ^ 16 % 256) * 256 +
      a.toNat / 2 ^ 8 % 256) * 256 + a.toNat % 256 = a.toNat := by omega
  unfold parseIPv4
  simp only [hsplit, AgentTargets.octets, map_cons, map_nil]
  rw [hoctet _ (by omega), hoctet _ (by omega), hoctet _ (by omega), hoctet _ (by omega)]
  simp only [hvalue, BitVec.ofNat_toNat, BitVec.setWidth_eq]

theorem parseIPv4_decimal (n : Nat) : parseIPv4 (decimal n) = none := by
  have hdots : '.' ∉ (decimal n).toList := decimal_not_mem (by decide) n
  simp [parseIPv4, split, splitChars_of_not_mem hdots]

theorem sampleParse_string (a : BitVec 128) : sampleParse (sampleString a) = some a := by
  by_cases hfour : a.toNat / 2 ^ 32 = 0xffff
  · have hvalue : 0xffff * 2 ^ 32 + a.toNat % 2 ^ 32 = a.toNat := by omega
    have hparse : ipv4Parser.parseIP (AgentTargets.dotted (a.setWidth 32)) = some a := by
      simp only [ipv4Parser, parseIPv4_dotted, Option.map_some, BitVec.toNat_setWidth]
      rw [hvalue, BitVec.ofNat_toNat, BitVec.setWidth_eq]
    rw [sampleString, if_pos hfour, sampleParse, hparse]
  · have hparse : ipv4Parser.parseIP (decimal a.toNat) = none := by
      simp only [ipv4Parser, parseIPv4_decimal, Option.map_none]
    rw [sampleString, if_neg hfour, sampleParse, hparse]
    simp [digits_decimal]

theorem isDigit_mem (h : c.isDigit = true) : c ∈ "0123456789abcdef.:".toList := by
  have hdigits : ∀ n < 58, 48 ≤ n → Char.ofNat n ∈ "0123456789abcdef.:".toList := by decide
  have hrange : 48 ≤ c.toNat ∧ c.toNat ≤ 57 := by
    simpa [Char.isDigit, UInt32.le_iff_toNat_le] using h
  rw [← Char.ofNat_toNat c]
  exact hdigits c.toNat (by omega) hrange.1

def sampleTexts : IPTexts where
  parseIP := sampleParse
  string := sampleString
  parse_string := sampleParse_string
  string_ne a hempty := by
    have hparse := sampleParse_string a
    have hnone : sampleParse "" = none := by decide
    rw [hempty, hnone] at hparse
    cases hparse
  string_chars a c hc := by
    unfold sampleString at hc
    split at hc
    · rcases Text.mem_join hc with hdot | ⟨t, ht, hc⟩
      · rw [List.mem_singleton.mp hdot]
        decide
      · obtain ⟨n, -, rfl⟩ := List.mem_map.mp ht
        exact isDigit_mem (Text.isDigit_of_mem_decimal hc)
    · exact isDigit_mem (Text.isDigit_of_mem_decimal hc)

/-- The address with these four octets, in its sixteen bytes. -/
def ipv4 (a b c d : Nat) : BitVec 128 :=
  BitVec.ofNat 128 (0xffff * 2 ^ 32 + (((a * 256 + b) * 256 + c) * 256 + d))

/-- The networks 10.0.0.0/8 and 127.0.0.0/8. -/
def proxyNets : List IPNet :=
  [.four (Masked.mask 0x0a000000 8 (by decide)), .four (Masked.mask 0x7f000000 8 (by decide))]

theorem key_behind_proxies :
    (∀ proxy ∈ [ipv4 10 0 0 2, ipv4 127 0 0 1], Trusted sampleTexts proxyNets proxy) ∧
      key sampleTexts proxyNets (arrival sampleTexts (ipv4 203 0 113 5) 443
        [ipv4 10 0 0 2, ipv4 127 0 0 1] { realIp := ["198.51.100.9"] }) = "203.0.113.5" := by
  have hchain : ∀ proxy ∈ [ipv4 10 0 0 2, ipv4 127 0 0 1], Trusted sampleTexts proxyNets proxy :=
    forall_mem_cons.mpr ⟨by decide +kernel, forall_mem_singleton.mpr (by decide +kernel)⟩
  refine ⟨hchain, ?_⟩
  exact (key_of_client_iff sampleTexts proxyNets (ipv4 203 0 113 5) 443 _ hchain).2 _ rfl
    fun h => by cases h

/-- Behind one trusted proxy, behind a proxy on the loopback with a text that is no address, from
the network of the proxies and from the loopback itself. -/
theorem forged_keys :
    let sent := fun client chain h =>
      key sampleTexts proxyNets (arrival sampleTexts client 443 chain h)
    sent (ipv4 203 0 113 5) [ipv4 10 0 0 2] { forwardedFor := ["198.51.100.9"] } = "198.51.100.9" ∧
      sent (ipv4 203 0 113 5) [ipv4 127 0 0 1] { forwardedFor := ["any text"] } = "any text" ∧
      sent (ipv4 10 0 0 7) [] { forwardedFor := ["198.51.100.9"] } = "198.51.100.9" ∧
      sent (ipv4 127 0 0 1) [] { realIp := ["any text"] } = "any text" := by
  decide +kernel

end Steward.RateLimitKey
