import OufMcp.Network.Address

/-!
# Downloading host files

The addresses `publicIP` accepts and the connections `dialPublicHTTPS` makes.  The
hand-kept list of blocked prefixes misses a few ranges of special use; apart from
them every accepted address is a public unicast address.
-/

namespace OufMcp.HostFiles

open Network

/-! ## Accepted addresses -/

def blockedPublicRanges : List Prefix :=
  [.v4 (ipv4 100 64 0 0 10), .v4 (ipv4 192 0 0 0 24), .v4 (ipv4 192 0 2 0 24),
    .v4 (ipv4 198 18 0 0 15), .v4 (ipv4 198 51 100 0 24), .v4 (ipv4 203 0 113 0 24),
    .v4 (ipv4 240 0 0 0 4), .v6 (ipv6 [0x64, 0xff9b] 96), .v6 (ipv6 [0x64, 0xff9b, 1] 48),
    .v6 (ipv6 [0x2001] 23), .v6 (ipv6 [0x2001, 0xdb8] 32), .v6 (ipv6 [0x2002] 16),
    .v6 (ipv6 [0xfec0] 10)]

/-- The checks on an address that was unmapped. -/
def acceptable (ip : Addr) : Bool :=
  ip.isGlobalUnicast && !ip.isPrivate && !blockedPublicRanges.any (·.contains ip)

def publicIP (raw : List UInt8) : Bool :=
  match addrFromSlice raw with
  | none => false
  | some ip => acceptable ip.unmap

/-- Ranges of special use that no check covers. -/
def overlooked : List Prefix :=
  .v4 thisNetwork :: .v6 discardOnly :: .v6 documentation ::
    special4.map fun range => .v6 (compatibleWith range)

theorem acceptable_v4 {address : BitVec 32} (accepted : acceptable (.v4 address) = true) :
    PublicUnicast (.v4 address) ↔ thisNetwork.contains address = false := by
  simp only [acceptable, Addr.isGlobalUnicast, Addr.isUnspecified, Addr.isBroadcast,
    Addr.isLoopback, Addr.isMulticast, Addr.isLinkLocalUnicast, Addr.isPrivate,
    blockedPublicRanges, List.any_cons, List.any_nil, Prefix.contains, Bool.and_eq_true,
    Bool.not_eq_true', Bool.or_eq_false_iff] at accepted
  simp only [PublicUnicast, special4, List.forall_mem_cons, List.not_mem_nil, accepted]
  simp

theorem publicUnicast_of_mapped {address : BitVec 128} (isMapped : mapped.contains address = true) :
    PublicUnicast (.v6 address) ↔ PublicUnicast (.v4 (low address)) := by
  have apart : ∀ range ∈ special6, mapped.Apart range := by decide
  have own : ∀ range ∈ special6, range.contains address = false :=
    fun range member => (apart range member).outside isMapped
  have noRelay : mapped.Apart sixToFour := by decide
  have noTunnel : mapped.Apart teredo := by decide
  have carried : embedded address = [low address] := by
    unfold embedded
    rw [noRelay.outside isMapped, noTunnel.outside isMapped, isMapped]
    rfl
  simp only [PublicUnicast, carried, List.mem_singleton, forall_eq, and_iff_right own]

theorem acceptable_v6 {address : BitVec 128} (unmapped : mapped.contains address = false)
    (accepted : acceptable (.v6 address) = true) :
    PublicUnicast (.v6 address) ↔
      discardOnly.contains address = false ∧ documentation.contains address = false ∧
        ∀ range ∈ special4, (compatibleWith range).contains address = false := by
  simp only [acceptable, Addr.isGlobalUnicast, Addr.isUnspecified, Addr.isBroadcast,
    Addr.isLoopback, Addr.isMulticast, Addr.isLinkLocalUnicast, Addr.isPrivate,
    blockedPublicRanges, List.any_cons, List.any_nil, Prefix.contains, Bool.and_eq_true,
    Bool.not_eq_true', Bool.or_eq_false_iff] at accepted
  obtain ⟨⟨⟨⟨⟨⟨unspecified, -⟩, loopback⟩, multicast⟩, linkLocal⟩, uniqueLocal⟩, -, -, -, -, -, -,
    -, translated, -, protocol, example6, relayed, siteLocal, -⟩ := accepted
  -- Teredo and the benchmarking prefix are parts of the blocked `2001::/23`.
  have part : ∀ range : Range 128, 23 ≤ range.length → range.length ≤ 128 →
      (ipv6 [0x2001] 23).contains range.base = true → range.contains address = false := by
    intro range longer fits within
    by_contra inside
    rw [Bool.not_eq_false] at inside
    rw [Range.contains_eq_base longer fits inside, within] at protocol
    cases protocol
  have benchmark := part (ipv6 [0x2001, 2] 48) (by decide) (by decide) (by decide)
  have tunnelled : teredo.contains address = false :=
    part teredo (by decide) (by decide) (by decide)
  have carried : embedded address =
      if compatible.contains address = true then [low address] else [] := by
    have noTranslation : nat64.contains address = false := translated
    have noRelay : sixToFour.contains address = false := relayed
    simp [embedded, unmapped, noTranslation, noRelay, tunnelled]
  have own : (∀ range ∈ special6, range.contains address = false) ↔
      discardOnly.contains address = false ∧ documentation.contains address = false := by
    simp only [special6, List.forall_mem_cons, unspecified, loopback, uniqueLocal, linkLocal,
      siteLocal, multicast, example6, benchmark, true_and, List.not_mem_nil]
    simp
  have inner : (∀ carried ∈ embedded address, ∀ range ∈ special4,
      range.contains carried = false) ↔
      ∀ range ∈ special4, (compatibleWith range).contains address = false := by
    have lengths : ∀ range ∈ special4, range.length ≤ 32 := by decide
    rw [carried]
    constructor
    · intro safe range member
      by_contra inside
      rw [Bool.not_eq_false, compatibleWith_contains (lengths range member)] at inside
      rw [if_pos inside.1] at safe
      rw [safe _ (List.mem_singleton_self _) range member] at inside
      cases inside.2
    · intro safe last among range member
      by_cases compat : compatible.contains address = true
      · rw [if_pos compat, List.mem_singleton] at among
        subst among
        by_contra inside
        rw [Bool.not_eq_false] at inside
        have both := (compatibleWith_contains (lengths range member) address).mpr ⟨compat, inside⟩
        rw [safe range member] at both
        cases both
      · rw [if_neg compat] at among
        cases among
  show (_ ∧ _) ↔ _
  rw [own, inner, and_assoc]

theorem acceptable_of_overlooked {ip : Addr} {range : Prefix} (member : range ∈ overlooked)
    (inside : range.contains ip = true) (specified : ip.isUnspecified = false)
    (remote : ip.isLoopback = false) : acceptable ip = true := by
  simp only [acceptable, Addr.isGlobalUnicast, specified, remote, Bool.and_eq_true,
    Bool.not_eq_true', Bool.or_eq_false_iff, blockedPublicRanges, List.any_cons, List.any_nil]
  cases ip with
  | v4 address =>
    have network : thisNetwork.contains address = true := by
      simp only [overlooked, List.mem_cons, List.mem_map] at member
      rcases member with rfl | rfl | rfl | ⟨_, -, rfl⟩
      · exact inside
      all_goals cases inside
    have apart : ∀ other, thisNetwork.Apart other → other.contains address = false :=
      fun _ disjoint => disjoint.outside network
    simp only [Addr.isBroadcast, Addr.isMulticast, Addr.isLinkLocalUnicast, Addr.isPrivate,
      Prefix.contains, Bool.or_eq_false_iff, true_and, and_true]
    and_intros
    all_goals exact apart _ (by decide)
  | v6 address =>
    obtain ⟨range, found, inside⟩ : ∃ range ∈ discardOnly :: documentation ::
        special4.map compatibleWith, range.contains address = true := by
      simp only [overlooked, List.mem_cons, List.mem_map] at member ⊢
      rcases member with rfl | rfl | rfl | ⟨range, special, rfl⟩
      · cases inside
      · exact ⟨_, .inl rfl, inside⟩
      · exact ⟨_, .inr (.inl rfl), inside⟩
      · exact ⟨_, .inr (.inr ⟨range, special, rfl⟩), inside⟩
    have apart : ∀ other : Range 128, (∀ range ∈ discardOnly :: documentation ::
        special4.map compatibleWith, range.Apart other) → other.contains address = false :=
      fun _ disjoint => (disjoint range found).outside inside
    simp only [Addr.isBroadcast, Addr.isMulticast, Addr.isLinkLocalUnicast, Addr.isPrivate,
      Prefix.contains, true_and, and_true]
    and_intros
    all_goals exact apart _ (by decide)

theorem publicIP_eq_true {raw : List UInt8} :
    publicIP raw = true ↔ ∃ ip, addrFromSlice raw = some ip ∧ acceptable ip.unmap = true := by
  unfold publicIP
  cases addrFromSlice raw <;> simp

/-- An accepted address is a public unicast address exactly when it is in no overlooked range. -/
theorem publicUnicast_iff {ip : Addr} (accepted : acceptable ip.unmap = true) :
    PublicUnicast ip ↔ ∀ range ∈ overlooked, range.contains ip.unmap = false := by
  cases ip with
  | v4 address =>
    rw [acceptable_v4 accepted]
    simp [overlooked, Prefix.contains, Addr.unmap]
  | v6 address =>
    by_cases isMapped : mapped.contains address = true
    · have unmapped : (Addr.v6 address).unmap = .v4 (low address) := if_pos isMapped
      rw [unmapped] at accepted ⊢
      rw [publicUnicast_of_mapped isMapped, acceptable_v4 accepted]
      simp [overlooked, Prefix.contains]
    · have kept : (Addr.v6 address).unmap = .v6 address := if_neg isMapped
      rw [kept] at accepted ⊢
      rw [acceptable_v6 (Bool.eq_false_iff.mpr isMapped) accepted]
      simp [overlooked, Prefix.contains]

/-- What is accepted is a public unicast address, unless it is in an overlooked range and is neither
the unspecified address nor the loopback address. -/
theorem publicIP_safe_iff {raw : List UInt8} :
    (publicIP raw = true → ∃ ip, addrFromSlice raw = some ip ∧ PublicUnicast ip) ↔
      ∀ ip, addrFromSlice raw = some ip → ∀ range ∈ overlooked, range.contains ip.unmap = true →
        ip.unmap.isUnspecified = true ∨ ip.unmap.isLoopback = true := by
  constructor
  · intro safe ip read range member inside
    by_contra other
    rw [not_or, Bool.not_eq_true, Bool.not_eq_true] at other
    have accepted := acceptable_of_overlooked member inside other.1 other.2
    obtain ⟨same, again, unicast⟩ := safe (publicIP_eq_true.mpr ⟨ip, read, accepted⟩)
    obtain rfl := Option.some.inj (read.symm.trans again)
    have outside := (publicUnicast_iff accepted).mp unicast range member
    rw [inside] at outside
    cases outside
  · intro outside accepted
    obtain ⟨ip, read, fine⟩ := publicIP_eq_true.mp accepted
    refine ⟨ip, read, (publicUnicast_iff fine).mpr ?_⟩
    intro range member
    by_contra inside
    rw [Bool.not_eq_false] at inside
    simp only [acceptable, Addr.isGlobalUnicast, Bool.and_eq_true, Bool.not_eq_true',
      Bool.or_eq_false_iff] at fine
    rcases outside ip read range member inside with unspecified | loopback
    · cases unspecified.symm.trans fine.1.1.1.1.1.1
    · cases loopback.symm.trans fine.1.1.1.1.2

/-! ## Connections -/

inductive Failure where
  | destinationDenied
  | dnsUnavailable
  | httpsUnavailable
  deriving DecidableEq, Repr

/-- What the network does for a dial: how addresses split into host and port, what a host
resolves to and which connections succeed. -/
structure Net where
  splitHostPort : String → Option (String × String)
  lookupIPAddr : String → Option (List (List UInt8))
  connects : List UInt8 → String → Bool

/-- Connect to one address after another until one answers; with the connections tried. -/
def Net.dial (net : Net) (port : String) :
    List (List UInt8) → Except Failure (List UInt8) × List (List UInt8 × String)
  | [] => (.error .httpsUnavailable, [])
  | ip :: rest =>
    if net.connects ip port then (.ok ip, [(ip, port)])
    else
      let (result, tried) := net.dial port rest
      (result, (ip, port) :: tried)

def dialPublicHTTPS (net : Net) (network address : String) :
    Except Failure (List UInt8) × List (List UInt8 × String) :=
  match net.splitHostPort address with
  | none => (.error .destinationDenied, [])
  | some (host, port) =>
    if port ≠ "443" ∨ network ≠ "tcp" then (.error .destinationDenied, [])
    else match net.lookupIPAddr host with
      | none | some [] => (.error .dnsUnavailable, [])
      | some (first :: rest) =>
        if (first :: rest).all publicIP then net.dial port (first :: rest)
        else (.error .destinationDenied, [])

theorem Net.dial_tried (net : Net) (port : String) (addresses : List (List UInt8)) :
    (∀ attempt ∈ (net.dial port addresses).2, attempt.1 ∈ addresses ∧ attempt.2 = port) ∧
      ∀ ip, (net.dial port addresses).1 = .ok ip → (ip, port) ∈ (net.dial port addresses).2 := by
  induction addresses with
  | nil =>
    refine ⟨?_, ?_⟩
    · exact nofun
    · exact nofun
  | cons first rest ih =>
    obtain ⟨known, connected⟩ := ih
    unfold Net.dial
    split
    next =>
      refine ⟨?_, ?_⟩
      · intro attempt only
        rw [List.mem_singleton.mp only]
        exact ⟨List.mem_cons_self, rfl⟩
      · intro ip done
        obtain rfl := Except.ok.inj done
        exact List.mem_cons_self
    next =>
      refine ⟨?_, ?_⟩
      · intro attempt member
        rcases List.mem_cons.mp member with rfl | later
        · exact ⟨List.mem_cons_self, rfl⟩
        · exact ⟨List.mem_cons_of_mem _ (known attempt later).1, (known attempt later).2⟩
      · intro ip done
        exact List.mem_cons_of_mem _ (connected ip done)

/-- Every connection is to an accepted address of the answer on port 443, and there is none
once any address of the answer is refused. -/
theorem dialPublicHTTPS_tried (net : Net) (network address : String) :
    (∀ attempt ∈ (dialPublicHTTPS net network address).2, ∃ host answer,
      net.splitHostPort address = some (host, "443") ∧ net.lookupIPAddr host = some answer ∧
      attempt.1 ∈ answer ∧ attempt.2 = "443" ∧ ∀ ip ∈ answer, publicIP ip = true) ∧
    ∀ ip, (dialPublicHTTPS net network address).1 = .ok ip →
      (ip, "443") ∈ (dialPublicHTTPS net network address).2 := by
  have nothing : ∀ failure : Failure,
      (∀ attempt ∈ ([] : List (List UInt8 × String)), ∃ host answer,
        net.splitHostPort address = some (host, "443") ∧ net.lookupIPAddr host = some answer ∧
        attempt.1 ∈ answer ∧ attempt.2 = "443" ∧ ∀ ip ∈ answer, publicIP ip = true) ∧
      ∀ ip, (Except.error failure : Except Failure (List UInt8)) = .ok ip →
        (ip, "443") ∈ ([] : List (List UInt8 × String)) := by
    intro failure
    refine ⟨?_, ?_⟩
    · exact nofun
    · exact nofun
  unfold dialPublicHTTPS
  split
  next => exact nothing _
  next host port split =>
    split
    next => exact nothing _
    next wanted =>
      have https : port = "443" := by
        by_contra other
        exact wanted (.inl other)
      subst https
      split
      next => exact nothing _
      next => exact nothing _
      next first rest resolved =>
        split
        next accepted =>
          obtain ⟨known, connected⟩ := net.dial_tried "443" (first :: rest)
          refine ⟨?_, connected⟩
          intro attempt member
          exact ⟨host, first :: rest, split, resolved, (known attempt member).1,
            (known attempt member).2, List.all_eq_true.mp accepted⟩
        next => exact nothing _

/-- Apart from the overlooked ranges only public unicast addresses are accepted, where the
unspecified and the loopback address of these ranges are refused, and downloads connect to
accepted addresses only. -/
theorem downloads_reach_accepted (raw : List UInt8) (net : Net)
    (network address : String) :
    (publicIP raw = true → ∃ ip, addrFromSlice raw = some ip ∧
      (PublicUnicast ip ↔ ∀ range ∈ overlooked, range.contains ip.unmap = false)) ∧
      ((publicIP raw = true → ∃ ip, addrFromSlice raw = some ip ∧ PublicUnicast ip) ↔
        ∀ ip, addrFromSlice raw = some ip → ∀ range ∈ overlooked, range.contains ip.unmap = true →
          ip.unmap.isUnspecified = true ∨ ip.unmap.isLoopback = true) ∧
      (∀ attempt ∈ (dialPublicHTTPS net network address).2, ∃ host answer,
        net.splitHostPort address = some (host, "443") ∧ net.lookupIPAddr host = some answer ∧
        attempt.1 ∈ answer ∧ attempt.2 = "443" ∧ ∀ ip ∈ answer, publicIP ip = true) ∧
      ∀ ip, (dialPublicHTTPS net network address).1 = .ok ip →
        (ip, "443") ∈ (dialPublicHTTPS net network address).2 := by
  refine ⟨?_, publicIP_safe_iff, dialPublicHTTPS_tried net network address⟩
  intro accepted
  obtain ⟨ip, read, fine⟩ := publicIP_eq_true.mp accepted
  exact ⟨ip, read, publicUnicast_iff fine⟩

def oneHost : Net where
  splitHostPort _ := some ("files", "443")
  lookupIPAddr _ := some [[93, 184, 215, 14]]
  connects _ _ := true

theorem downloads_reach_accepted_oneHost :
    publicIP [93, 184, 215, 14] = true ∧ PublicUnicast (.v4 0x5db8d70e) ∧
      (dialPublicHTTPS oneHost "tcp" "files:443").1 = .ok [93, 184, 215, 14] ∧
      ([93, 184, 215, 14], "443") ∈ (dialPublicHTTPS oneHost "tcp" "files:443").2 := by
  obtain ⟨unicastIff, -, -, connected⟩ :=
    downloads_reach_accepted [93, 184, 215, 14] oneHost "tcp" "files:443"
  have accepted : publicIP [93, 184, 215, 14] = true := by decide
  have dialled : (dialPublicHTTPS oneHost "tcp" "files:443").1 = .ok [93, 184, 215, 14] := by decide
  obtain ⟨ip, read, unicast⟩ := unicastIff accepted
  obtain rfl : .v4 0x5db8d70e = ip := Option.some.inj read
  exact ⟨accepted, unicast.mpr (by decide), dialled, connected _ dialled⟩

/-- `::127.0.0.1` is accepted and carries the loopback address. -/
theorem publicIP_accepts_loopback :
    publicIP [0, 0, 0, 0, 0, 0, 0, 0, 0, 0, 0, 0, 127, 0, 0, 1] = true ∧
      addrFromSlice [0, 0, 0, 0, 0, 0, 0, 0, 0, 0, 0, 0, 127, 0, 0, 1] = some (.v6 0x7f000001) ∧
      embedded 0x7f000001 = [0x7f000001] ∧ (ipv4 127 0 0 0 8).contains 0x7f000001 = true ∧
      ¬ PublicUnicast (.v6 0x7f000001) := by
  refine ⟨by decide, by decide, by decide, by decide, ?_⟩
  rintro ⟨-, safe⟩
  have loopback := safe 0x7f000001 (by decide) (ipv4 127 0 0 0 8) (by decide)
  exact absurd loopback (by decide)

end OufMcp.HostFiles
