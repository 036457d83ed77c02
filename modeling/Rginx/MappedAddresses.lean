-- Addresses of IPv4 in the form that an IPv6 listener reports them in (`::ffff:a`), through the
-- lists of networks, the address of the client and the key of its bucket
-- (`rginx-core/src/config/server.rs`, `route.rs`, `client_ip.rs`, `rate_limit.rs`).
-- Nothing takes the two forms for one address.
import Rginx.ClientAddress
import Rginx.RateIsolation

open rust_text rust_net rginx.cache rginx.rate_limit

namespace rginx.client

/-! ## The lists of a route -/

structure RouteAccessControl where
  allow_cidrs : List IpNet
  deny_cidrs : List IpNet

def RouteAccessControl.allows (access : RouteAccessControl) (ip : IpAddr) : Bool :=
  if access.deny_cidrs.any fun cidr => cidr.contains ip then false
  else access.allow_cidrs = [] ∨ access.allow_cidrs.any fun cidr => cidr.contains ip

/-! ## Two forms of one address -/

/-- `Ipv4Addr::to_ipv6_mapped`. -/
def to_ipv6_mapped (bits : BitVec 32) : BitVec 128 := BitVec.ofNat 128 (0xFFFF * 2 ^ 32 + bits.toNat)

/-- The network of the mapped addresses of a network. -/
def mapped_net (addr : BitVec 32) (prefix_len : Fin 33) : IpNet :=
  .V6 (to_ipv6_mapped addr) ⟨96 + prefix_len.val, by omega⟩

theorem toNat_to_ipv6_mapped (bits : BitVec 32) :
    (to_ipv6_mapped bits).toNat = 0xFFFF * 2 ^ 32 + bits.toNat := by
  have hbits := bits.isLt
  unfold to_ipv6_mapped
  rw [BitVec.toNat_ofNat]
  omega

/-- The mapped network holds the mapped addresses of its network. -/
theorem contains_mapped_net (addr : BitVec 32) (prefix_len : Fin 33) (bits : BitVec 32) :
    (mapped_net addr prefix_len).contains (.V6 (to_ipv6_mapped bits)) =
      (IpNet.V4 addr prefix_len).contains (.V4 bits) := by
  have hlen := prefix_len.isLt
  obtain ⟨shift, hshift⟩ : ∃ shift, shift = 32 - prefix_len.val := ⟨_, rfl⟩
  have hsame : 128 - (96 + prefix_len.val) = shift := by omega
  have hdiv : ∀ n : Nat, (0xFFFF * 2 ^ 32 + n) / 2 ^ shift =
      0xFFFF * 2 ^ (32 - shift) + n / 2 ^ shift := by
    intro n
    have hpow : 2 ^ 32 = 2 ^ shift * 2 ^ (32 - shift) := by
      rw [← Nat.pow_add]
      congr 1
      omega
    rw [hpow, Nat.mul_left_comm, Nat.mul_add_div (Nat.two_pow_pos shift)]
  unfold mapped_net IpNet.contains
  dsimp only
  rw [hsame, ← hshift]
  apply decide_eq_decide.mpr
  rw [← BitVec.toNat_inj, ← BitVec.toNat_inj]
  simp only [BitVec.toNat_ushiftRight, toNat_to_ipv6_mapped, Nat.shiftRight_eq_div_pow, hdiv]
  omega

/-- An address of IPv4 is in a list by its networks of IPv4 alone. -/
theorem any_contains_v4 (cidrs : List IpNet) (bits : BitVec 32) :
    (cidrs.any fun cidr => cidr.contains (.V4 bits)) = true ↔
      ∃ addr prefix_len, .V4 addr prefix_len ∈ cidrs ∧
        (IpNet.V4 addr prefix_len).contains (.V4 bits) = true := by
  rw [List.any_eq_true]
  constructor
  · rintro ⟨cidr | cidr, hmem, hcontains⟩
    · exact ⟨_, _, hmem, hcontains⟩
    · simp [IpNet.contains] at hcontains
  · rintro ⟨addr, prefix_len, hmem, hcontains⟩
    exact ⟨_, hmem, hcontains⟩

/-- And an address of IPv6, a mapped one too, by its networks of IPv6 alone. -/
theorem any_contains_v6 (cidrs : List IpNet) (bits : BitVec 128) :
    (cidrs.any fun cidr => cidr.contains (.V6 bits)) = true ↔
      ∃ addr prefix_len, .V6 addr prefix_len ∈ cidrs ∧
        (IpNet.V6 addr prefix_len).contains (.V6 bits) = true := by
  rw [List.any_eq_true]
  constructor
  · rintro ⟨cidr | cidr, hmem, hcontains⟩
    · simp [IpNet.contains] at hcontains
    · exact ⟨_, _, hmem, hcontains⟩
  · rintro ⟨addr, prefix_len, hmem, hcontains⟩
    exact ⟨_, hmem, hcontains⟩

/-- A list that holds an address exactly if it holds its mapped form. -/
def Alike (cidrs : List IpNet) : Prop :=
  ∀ bits, (cidrs.any fun cidr => cidr.contains (.V4 bits)) =
    cidrs.any fun cidr => cidr.contains (.V6 (to_ipv6_mapped bits))

/-- A list is such a list when it names its networks of IPv4 in both forms. -/
theorem alike_of_mapped_nets (nets : List (BitVec 32 × Fin 33)) {others : List IpNet}
    (hothers : ∀ cidr ∈ others, ∀ bits, cidr.contains (.V4 bits) = false ∧
      cidr.contains (.V6 (to_ipv6_mapped bits)) = false) :
    Alike (nets.map (fun net => .V4 net.1 net.2) ++ nets.map (fun net => mapped_net net.1 net.2) ++
      others) := by
  intro bits
  have hnone : ∀ ip, (∀ cidr ∈ others, cidr.contains ip = false) →
      (others.any fun cidr => cidr.contains ip) = false := by
    intro ip h
    rw [List.any_eq_false]
    intro cidr hcidr
    simp [h cidr hcidr]
  rw [List.any_append, List.any_append, List.any_append, List.any_append,
    hnone _ fun cidr hcidr => (hothers cidr hcidr bits).1,
    hnone _ fun cidr hcidr => (hothers cidr hcidr bits).2]
  simp only [List.any_map, Function.comp_def, contains_mapped_net, Bool.or_false]
  have hnever : ∀ p : BitVec 32 × Fin 33 → Bool, (∀ net, p net = false) → nets.any p = false := by
    intro p hp
    rw [List.any_eq_false]
    intro net _
    simp [hp net]
  rw [hnever (fun net => (mapped_net net.1 net.2).contains (.V4 bits)) fun _ => rfl,
    hnever (fun net => (IpNet.V4 net.1 net.2).contains (.V6 _)) fun _ => rfl, Bool.or_false,
    Bool.false_or]

/-! ## Two forms of one request -/

/-- The same address, or its mapped form. -/
def Form (ip ip' : IpAddr) : Prop :=
  ip' = ip ∨ ∃ bits, ip = .V4 bits ∧ ip' = .V6 (to_ipv6_mapped bits)

/-- Two requests that differ in the forms of their addresses. -/
structure Forms (server : Server) (headers headers' : HeaderMap)
    (connection connection' : ConnectionPeerAddrs) : Prop where
  peer : Form connection.socket_peer_addr.ip connection'.socket_peer_addr.ip
  immediate_peer : Form connection.immediate_peer.ip connection'.immediate_peer.ip
  client_ip_header : Option.Rel Form
    (server.client_ip_header.bind (parse_client_ip_header headers))
    (server.client_ip_header.bind (parse_client_ip_header headers'))
  chain : Option.Rel (List.Forall₂ Form) (parse_x_forwarded_for headers)
    (parse_x_forwarded_for headers')

theorem any_contains_of_form {cidrs : List IpNet} {ip ip' : IpAddr} (halike : Alike cidrs)
    (h : Form ip ip') :
    (cidrs.any fun cidr => cidr.contains ip) = cidrs.any fun cidr => cidr.contains ip' := by
  rcases h with rfl | ⟨bits, rfl, rfl⟩
  · rfl
  · exact halike bits

theorem find_of_forms {p : IpAddr → Bool} {ips ips' : List IpAddr}
    (hp : ∀ {ip ip'}, Form ip ip' → p ip = p ip') (h : List.Forall₂ Form ips ips') :
    Option.Rel Form (ips.find? p) (ips'.find? p) := by
  induction h with
  | nil => exact .none
  | @cons ip ip' ips ips' hip _ ih =>
    rw [List.find?_cons, List.find?_cons, ← hp hip]
    cases p ip with
    | true => exact .some hip
    | false => exact ih

theorem form_getD {ip ip' : IpAddr} {found found' : Option IpAddr}
    (hfound : Option.Rel Form found found') (h : Form ip ip') :
    Form (found.getD ip) (found'.getD ip') := by
  cases hfound with
  | some hsome => exact hsome
  | none => exact h

theorem select_of_forms {server : Server} {chain chain' : List IpAddr} {peer peer' : IpAddr}
    (halike : Alike server.trusted_proxies) (hchain : List.Forall₂ Form chain chain')
    (hpeer : Form peer peer') :
    Form (select_client_ip_with_immediate_peer chain peer server)
      (select_client_ip_with_immediate_peer chain' peer' server) := by
  have hhops : List.Forall₂ Form (chain.reverse ++ [peer]) (chain'.reverse ++ [peer']) :=
    List.rel_append (List.forall₂_reverse_iff.mpr hchain) (.cons hpeer .nil)
  apply form_getD
  · apply find_of_forms _ hhops
    intro ip ip' h
    unfold Server.is_trusted_proxy
    rw [any_contains_of_form halike h]
  · cases hchain with
    | nil => exact hpeer
    | cons hip _ => exact hip

/-- Where the trusted networks are named in both forms, the client is the same up to its form. -/
theorem resolve_of_forms {server : Server} {headers headers' : HeaderMap}
    {connection connection' : ConnectionPeerAddrs} (halike : Alike server.trusted_proxies)
    (h : Forms server headers headers' connection connection') :
    (resolve_client_address headers server connection).source =
        (resolve_client_address headers' server connection').source ∧
      Form (resolve_client_address headers server connection).client_ip
        (resolve_client_address headers' server connection').client_ip := by
  have htrusted : server.is_trusted_proxy connection.socket_peer_addr.ip =
      server.is_trusted_proxy connection'.socket_peer_addr.ip :=
    any_contains_of_form halike h.peer
  unfold resolve_client_address
  dsimp only
  rw [← htrusted]
  cases server.is_trusted_proxy connection.socket_peer_addr.ip with
  | false => exact ⟨rfl, h.peer⟩
  | true =>
    rw [if_neg (by simp), if_neg (by simp)]
    have hheader := h.client_ip_header
    have hchain := h.chain
    generalize server.client_ip_header.bind (parse_client_ip_header headers) = found at hheader ⊢
    generalize server.client_ip_header.bind (parse_client_ip_header headers') = found'
      at hheader ⊢
    generalize parse_x_forwarded_for headers = chain at hchain ⊢
    generalize parse_x_forwarded_for headers' = chain' at hchain ⊢
    cases hheader with
    | some hip => exact ⟨rfl, hip⟩
    | none =>
      cases hchain with
      | none => exact ⟨rfl, h.immediate_peer⟩
      | some hchain => exact ⟨rfl, select_of_forms halike hchain h.immediate_peer⟩

theorem allows_of_form {access : RouteAccessControl} {ip ip' : IpAddr}
    (hallow : Alike access.allow_cidrs) (hdeny : Alike access.deny_cidrs) (h : Form ip ip') :
    access.allows ip = access.allows ip' := by
  unfold RouteAccessControl.allows
  rw [any_contains_of_form hallow h, any_contains_of_form hdeny h]

/-! ## The mapped form is an address of its own -/

theorem allows_eq_true (access : RouteAccessControl) (ip : IpAddr) :
    access.allows ip = true ↔ (access.deny_cidrs.any fun cidr => cidr.contains ip) ≠ true ∧
      (access.allow_cidrs = [] ∨ (access.allow_cidrs.any fun cidr => cidr.contains ip) = true) := by
  unfold RouteAccessControl.allows
  split
  · rename_i hdenied
    simp [hdenied]
  · rename_i hdenied
    simp [hdenied]

/-- A mapped address is trusted, allowed and counted as an address of IPv6. -/
theorem mapped_addresses_are_apart (server : Server) (access : RouteAccessControl) :
    -- The lists look at the networks of its own form.
    (∀ bits,
      (server.is_trusted_proxy (.V4 bits) = true ↔ ∃ addr prefix_len,
        .V4 addr prefix_len ∈ server.trusted_proxies ∧
          (IpNet.V4 addr prefix_len).contains (.V4 bits) = true) ∧
      (server.is_trusted_proxy (.V6 (to_ipv6_mapped bits)) = true ↔ ∃ addr prefix_len,
        .V6 addr prefix_len ∈ server.trusted_proxies ∧
          (IpNet.V6 addr prefix_len).contains (.V6 (to_ipv6_mapped bits)) = true) ∧
      (access.allows (.V4 bits) = true ↔
        (¬ ∃ addr prefix_len, .V4 addr prefix_len ∈ access.deny_cidrs ∧
          (IpNet.V4 addr prefix_len).contains (.V4 bits) = true) ∧
        (access.allow_cidrs = [] ∨ ∃ addr prefix_len, .V4 addr prefix_len ∈ access.allow_cidrs ∧
          (IpNet.V4 addr prefix_len).contains (.V4 bits) = true)) ∧
      (access.allows (.V6 (to_ipv6_mapped bits)) = true ↔
        (¬ ∃ addr prefix_len, .V6 addr prefix_len ∈ access.deny_cidrs ∧
          (IpNet.V6 addr prefix_len).contains (.V6 (to_ipv6_mapped bits)) = true) ∧
        (access.allow_cidrs = [] ∨ ∃ addr prefix_len, .V6 addr prefix_len ∈ access.allow_cidrs ∧
          (IpNet.V6 addr prefix_len).contains (.V6 (to_ipv6_mapped bits)) = true))) ∧
    -- The network of the mapped addresses names both.
    (∀ addr prefix_len bits, (mapped_net addr prefix_len).contains (.V6 (to_ipv6_mapped bits)) =
      (IpNet.V4 addr prefix_len).contains (.V4 bits)) ∧
    (∀ (nets : List (BitVec 32 × Fin 33)) others, (∀ cidr ∈ others, ∀ bits,
        cidr.contains (.V4 bits) = false ∧ cidr.contains (.V6 (to_ipv6_mapped bits)) = false) →
      Alike (nets.map (fun net => .V4 net.1 net.2) ++
        nets.map (fun net => mapped_net net.1 net.2) ++ others)) ∧
    -- With lists that name both forms, the client is the same up to its form, and is allowed alike.
    (∀ headers headers' connection connection', Alike server.trusted_proxies →
      Forms server headers headers' connection connection' →
      let client := resolve_client_address headers server connection
      let client' := resolve_client_address headers' server connection'
      client.source = client'.source ∧ Form client.client_ip client'.client_ip ∧
        (Alike access.allow_cidrs → Alike access.deny_cidrs →
          access.allows client.client_ip = access.allows client'.client_ip)) ∧
    -- The two forms never share a bucket.
    ∀ route bits,
      BucketKey.mk route (.V4 bits) ≠ BucketKey.mk route (.V6 (to_ipv6_mapped bits)) ∧
        bucket_key route (.V4 bits) ≠ bucket_key route (.V6 (to_ipv6_mapped bits)) := by
  refine ⟨?_, contains_mapped_net, fun nets others => alike_of_mapped_nets nets, ?_, ?_⟩
  · intro bits
    refine ⟨any_contains_v4 _ _, any_contains_v6 _ _, ?_, ?_⟩
    · rw [allows_eq_true, ne_eq, any_contains_v4, any_contains_v4]
    · rw [allows_eq_true, ne_eq, any_contains_v6, any_contains_v6]
  · intro headers headers' connection connection' halike h
    obtain ⟨hsource, hclient⟩ := resolve_of_forms halike h
    exact ⟨hsource, hclient, fun hallow hdeny => allows_of_form hallow hdeny hclient⟩
  · intro route bits
    refine ⟨?_, ?_⟩
    · intro h
      cases (BucketKey.mk.inj h).2
    · intro h
      cases (bucket_key_injective h).2

/-- A list that denies 10.0.0.0/8 lets ::ffff:10.0.0.1 pass, and a server that trusts the network
does not trust the address. -/
theorem a_mapped_address_passes :
    let net : IpNet := .V4 0x0A000000#32 8
    let ip : IpAddr := .V4 0x0A000001#32
    let mapped : IpAddr := .V6 (to_ipv6_mapped 0x0A000001#32)
    (Server.mk [net] none).is_trusted_proxy ip = true ∧
      (Server.mk [net] none).is_trusted_proxy mapped = false ∧
      (RouteAccessControl.mk [] [net]).allows ip = false ∧
      (RouteAccessControl.mk [] [net]).allows mapped = true ∧
      (resolve_client_address [] (Server.mk [] none) ⟨⟨ip, 4000⟩, none⟩).client_ip ≠
        (resolve_client_address [] (Server.mk [] none) ⟨⟨mapped, 4000⟩, none⟩).client_ip ∧
      BucketKey.mk "/" ip ≠ BucketKey.mk "/" mapped := by
  refine ⟨by decide, by decide, by decide, by decide, ?_, ?_⟩
  · intro h
    cases h
  · intro h
    cases (BucketKey.mk.inj h).2

end rginx.client
