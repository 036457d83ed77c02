-- The certificates that a listener answers a server name with, beside the virtual host that
-- serves the same name as a host, from `tls/sni.rs` and `tls/acceptor.rs` of the crate
-- `rginx-http`.
import Rginx.ServerNameMatches
import Rginx.TlsAcceptors

open rust_text rust_result rginx.config

namespace rginx.http

variable {Files Key Policy : Type} (library : TlsLibrary Files Key Policy)

/-! ## The certificates of a name -/

/-- `resolve`, before the choice by signature scheme. The keys of the map come in any order. -/
def resolve_certs (keys : List String) (acceptor : TlsAcceptor Key Policy) (server_name : String) :
    List Key :=
  let name_lower := library.to_lowercase server_name
  match best_matching_server_name_pattern (keys.map String.toList) name_lower.toList with
  | some (pattern, _) => (acceptor.all_certs.get (String.ofList pattern)).getD acceptor.default_certs
  | none => acceptor.default_certs

/-- The server block and the virtual hosts. -/
def owners (config : ConfigSnapshot) : List VirtualHost := config.default_vhost :: config.vhosts

/-- The certificates of an owner of names: those of the listener for the server block. -/
def owner_certs (files : Files) (listener : Listener) (vhost : VirtualHost) :
    Except String (List Key) :=
  match vhost.tls with
  | some tls => load_vhost_certified_keys library files tls
  | none => load_listener_default_certs library files listener.server.tls

def registered_names (to_lowercase : String → String) (vhosts : List VirtualHost) : List String :=
  (vhosts.flatMap fun vhost => vhost.server_names).map to_lowercase

/-! ## What is registered -/

theorem extend_of_notMem {all_certs : CertificatesByName Key} {name : String}
    (h : name ∉ all_certs.map Prod.fst) (certs : List Key) :
    all_certs.extend name certs = all_certs ++ [(name, certs)] := by
  unfold CertificatesByName.extend
  rw [if_neg]
  intro hany
  obtain ⟨row, hrow, hname⟩ := List.any_eq_true.mp hany
  exact h (of_decide_eq_true hname ▸ List.mem_map_of_mem hrow)

/-- Names that are new stand after the others. -/
theorem register_eq {all_certs : CertificatesByName Key} {server_names : List String}
    (certs : List Key)
    (h : (all_certs.map Prod.fst ++ server_names.map library.to_lowercase).Nodup) :
    register_server_name_certificates library all_certs server_names certs =
      all_certs ++ server_names.map fun name => (library.to_lowercase name, certs) := by
  unfold register_server_name_certificates
  induction server_names generalizing all_certs with
  | nil => simp
  | cons name server_names ih =>
    have hnew : library.to_lowercase name ∉ all_certs.map Prod.fst := by
      intro hmem
      exact (List.nodup_append.mp h).2.2 _ hmem _ (by simp) rfl
    rw [List.foldl_cons, extend_of_notMem hnew, ih (by simpa using h)]
    simp

variable {library}

theorem get_eq_some {all_certs : CertificatesByName Key} (hnodup : (all_certs.map Prod.fst).Nodup)
    {name : String} {certs : List Key} :
    all_certs.get name = some certs ↔ (name, certs) ∈ all_certs := by
  unfold CertificatesByName.get
  constructor
  · intro h
    obtain ⟨row, hfind, rfl⟩ := Option.map_eq_some_iff.mp h
    have hname : row.1 = name := by simpa using List.find?_some hfind
    exact hname ▸ List.mem_of_find?_eq_some hfind
  · intro hmem
    rw [find_of_nodup hnodup hmem]
    rfl

variable (library) in
/-- A row of some owners: a name of theirs in lower case, with their certificates. -/
def RowOf (files : Files) (listener : Listener) (vhosts : List VirtualHost)
    (row : String × List Key) : Prop :=
  ∃ vhost ∈ vhosts, owner_certs library files listener vhost = .ok row.2 ∧
    ∃ name ∈ vhost.server_names, library.to_lowercase name = row.1

theorem rowOf_cons {files : Files} {listener : Listener} {vhost : VirtualHost}
    {vhosts : List VirtualHost} {certs : List Key} {row : String × List Key}
    (h : owner_certs library files listener vhost = .ok certs) :
    RowOf library files listener (vhost :: vhosts) row ↔
      row ∈ vhost.server_names.map (fun name => (library.to_lowercase name, certs)) ∨
        RowOf library files listener vhosts row := by
  unfold RowOf
  rw [List.exists_mem_cons_iff, h, List.mem_map]
  refine or_congr_left ⟨?_, ?_⟩
  · rintro ⟨hcerts, name, hname, hlower⟩
    exact ⟨name, hname, Prod.ext hlower (Except.ok.inj hcerts)⟩
  · rintro ⟨name, hname, rfl⟩
    exact ⟨rfl, name, hname, rfl⟩

/-- With names that are all apart, each owner leaves its own rows. -/
theorem register_vhosts_rows {files : Files} {listener : Listener} {vhosts : List VirtualHost}
    {all_certs all_certs' : CertificatesByName Key}
    (h : vhosts.foldlM (register_vhost library files) all_certs = .ok all_certs')
    (htls : ∀ vhost ∈ vhosts, vhost.tls.isSome = true)
    (hnodup : (all_certs.map Prod.fst ++ registered_names library.to_lowercase vhosts).Nodup) :
    all_certs'.map Prod.fst = all_certs.map Prod.fst ++ registered_names library.to_lowercase vhosts ∧
    (∀ vhost ∈ vhosts, ∃ certs, owner_certs library files listener vhost = .ok certs) ∧
    ∀ row, row ∈ all_certs' ↔ row ∈ all_certs ∨ RowOf library files listener vhosts row := by
  induction vhosts generalizing all_certs with
  | nil =>
    obtain rfl := Except.ok.inj h
    simp [registered_names, RowOf]
  | cons vhost vhosts ih =>
    rw [List.foldlM_cons, bind_eq_ok] at h
    obtain ⟨middle, hmiddle, hrest⟩ := h
    obtain ⟨tls, hvhost⟩ := Option.isSome_iff_exists.mp (htls vhost List.mem_cons_self)
    unfold register_vhost at hmiddle
    rw [hvhost] at hmiddle
    obtain ⟨certs, hload, hmiddle⟩ := bind_eq_ok.mp hmiddle
    have hcerts : owner_certs library files listener vhost = .ok certs := by
      rw [owner_certs, hvhost]
      exact hload
    have hnames : registered_names library.to_lowercase (vhost :: vhosts) =
        vhost.server_names.map library.to_lowercase ++
          registered_names library.to_lowercase vhosts := by
      simp [registered_names]
    rw [hnames, ← List.append_assoc] at hnodup
    rw [register_eq library certs hnodup.of_append_left] at hmiddle
    obtain rfl := Except.ok.inj hmiddle
    have hmiddle_names : (all_certs ++ vhost.server_names.map fun name =>
        (library.to_lowercase name, certs)).map Prod.fst =
          all_certs.map Prod.fst ++ vhost.server_names.map library.to_lowercase := by
      simp [Function.comp_def]
    obtain ⟨hkeys, hloaded, hrows⟩ := ih hrest
      (fun other hother => htls other (List.mem_cons_of_mem _ hother)) (hmiddle_names ▸ hnodup)
    refine ⟨?_, ?_, ?_⟩
    · rw [hkeys, hmiddle_names, hnames, List.append_assoc]
    · exact List.forall_mem_cons.mpr ⟨⟨certs, hcerts⟩, hloaded⟩
    · intro row
      rw [hrows, rowOf_cons hcerts, List.mem_append, or_assoc]

/-- What an acceptor holds: the names of all owners, each with the certificates of its owner. -/
structure Holds (library : TlsLibrary Files Key Policy) (files : Files) (config : ConfigSnapshot)
    (listener : Listener) (all_certs : CertificatesByName Key) : Prop where
  names_apart : (all_certs.map Prod.fst).Nodup
  loaded : ∀ vhost ∈ owners config, ∃ certs, owner_certs library files listener vhost = .ok certs
  rows : ∀ row, row ∈ all_certs ↔ RowOf library files listener (owners config) row

theorem built_holds {files : Files} {config : ConfigSnapshot} {listener : Listener}
    {acceptor : TlsAcceptor Key Policy}
    (h : build_listener_tls_acceptor library files config listener = .ok (some acceptor))
    (hdefault : config.default_vhost.tls = none)
    (htls : ∀ vhost ∈ config.vhosts, vhost.tls.isSome = true)
    (hnames : config.default_vhost.server_names ≠ [] → listener.server.tls.isSome = true)
    (hnodup : (registered_names library.to_lowercase (owners config)).Nodup) :
    Holds library files config listener acceptor.all_certs := by
  unfold build_listener_tls_acceptor build_tls_acceptor at h
  split at h
  · cases h
  obtain ⟨⟨listener_default_certs, all_certs⟩, hload, h⟩ := bind_eq_ok.mp h
  obtain ⟨named, _, h⟩ := bind_eq_ok.mp h
  dsimp only at h
  split at h
  · cases h
  obtain ⟨policy, _, h⟩ := bind_eq_ok.mp h
  obtain rfl := Option.some.inj (Except.ok.inj h)
  unfold load_all_certs at hload
  obtain ⟨own, hown, hload⟩ := bind_eq_ok.mp hload
  obtain ⟨first, hfirst, hload⟩ := bind_eq_ok.mp hload
  obtain ⟨last, hlast, hload⟩ := bind_eq_ok.mp hload
  obtain ⟨rfl, rfl⟩ := Prod.mk.inj (Except.ok.inj hload)
  have hown' : owner_certs library files listener config.default_vhost = .ok own := by
    rw [owner_certs, hdefault]
    exact hown
  have hsplit : registered_names library.to_lowercase (owners config) =
      config.default_vhost.server_names.map library.to_lowercase ++
        registered_names library.to_lowercase config.vhosts := by
    simp [registered_names, owners]
  rw [hsplit] at hnodup
  have hblock : first = config.default_vhost.server_names.map fun name =>
      (library.to_lowercase name, own) := by
    unfold register_vhost at hfirst
    rw [hdefault] at hfirst
    rw [← Except.ok.inj hfirst]
    split
    · rw [register_eq library own (by simpa using hnodup.of_append_left), List.nil_append]
    · rename_i hnone
      have hnil : config.default_vhost.server_names = [] := by
        by_contra hne
        exact hnone (hnames hne)
      rw [hnil, List.map_nil]
  have hkeys : first.map Prod.fst = config.default_vhost.server_names.map library.to_lowercase := by
    rw [hblock, List.map_map]
    rfl
  obtain ⟨hlast_keys, hloaded, hrows⟩ :=
    @register_vhosts_rows _ _ _ library files listener _ _ _ hlast htls (hkeys ▸ hnodup)
  refine ⟨?_, ?_, ?_⟩
  · rw [hlast_keys, hkeys]
    exact hnodup
  · exact List.forall_mem_cons.mpr ⟨⟨own, hown'⟩, hloaded⟩
  · intro row
    rw [hrows, hblock, owners, rowOf_cons hown']

/-! ## The name that is preferred -/

/-- A name whose lower case matches best, the smaller text among equals. -/
structure SniPrefers (to_lowercase : String → String) (vhosts : List VirtualHost) (host : Text)
    (vhost : VirtualHost) (name : String) : Prop where
  owner : vhost ∈ vhosts
  named : name ∈ vhost.server_names
  best : ∃ matched, match_server_name (to_lowercase name).toList host = some matched ∧
    ∀ other ∈ vhosts, ∀ other_name ∈ other.server_names, ∀ other_matched,
      match_server_name (to_lowercase other_name).toList host = some other_matched →
        match_order ((to_lowercase other_name).toList, other_matched) ≤
          match_order ((to_lowercase name).toList, matched)

/-- The preferred name is one text, whoever owns it. -/
theorem SniPrefers.lower_eq {to_lowercase : String → String} {vhosts : List VirtualHost}
    {host : Text} {vhost vhost' : VirtualHost} {name name' : String}
    (h : SniPrefers to_lowercase vhosts host vhost name)
    (h' : SniPrefers to_lowercase vhosts host vhost' name') :
    to_lowercase name = to_lowercase name' := by
  obtain ⟨matched, hmatched, hbest⟩ := h.best
  obtain ⟨matched', hmatched', hbest'⟩ := h'.best
  have hsame := le_antisymm (hbest' vhost h.owner name h.named matched hmatched)
    (hbest vhost' h'.owner name' h'.named matched' hmatched')
  have htext := congrArg (fun order => OrderDual.ofDual (ofLex order).2) hsame
  exact String.toList_injective htext

variable {files : Files} {config : ConfigSnapshot} {listener : Listener}
  {acceptor : TlsAcceptor Key Policy} {keys : List String} {server_name : String}

/-- Where a name matches, the certificates are those of the owner of the preferred name. -/
theorem resolve_certs_spec (hlower : Lowercases library.to_lowercase)
    (hholds : Holds library files config listener acceptor.all_certs)
    (hkeys : keys.Perm (acceptor.all_certs.map Prod.fst)) (hascii : Ascii server_name.toList)
    (hmatch : ∃ vhost ∈ owners config, ∃ name ∈ vhost.server_names, ∃ matched,
      match_server_name (library.to_lowercase name).toList server_name.toList = some matched) :
    ∃ vhost name, SniPrefers library.to_lowercase (owners config) server_name.toList vhost name ∧
      owner_certs library files listener vhost =
        .ok (resolve_certs library keys acceptor server_name) := by
  have hhost : normalize_host_for_match (library.to_lowercase server_name).toList =
      normalize_host_for_match server_name.toList := by
    rw [hlower.ascii _ hascii, normalize_host_lowercase]
  have hkey : ∀ key, key ∈ keys ↔ ∃ vhost ∈ owners config, ∃ name ∈ vhost.server_names,
      library.to_lowercase name = key := by
    intro key
    rw [hkeys.mem_iff, List.mem_map]
    constructor
    · rintro ⟨row, hrow, rfl⟩
      obtain ⟨vhost, hvhost, _, name, hname, hkey⟩ := (hholds.rows row).mp hrow
      exact ⟨vhost, hvhost, name, hname, hkey⟩
    · rintro ⟨vhost, hvhost, name, hname, hkey⟩
      obtain ⟨certs, hcerts⟩ := hholds.loaded vhost hvhost
      exact ⟨(key, certs), (hholds.rows _).mpr ⟨vhost, hvhost, hcerts, name, hname, hkey⟩, rfl⟩
  unfold resolve_certs
  dsimp only
  rw [best_matching_host hhost]
  cases hbest : best_matching_server_name_pattern (keys.map String.toList) server_name.toList with
  | none =>
    obtain ⟨vhost, hvhost, name, hname, matched, hmatched⟩ := hmatch
    have hmem : (library.to_lowercase name).toList ∈ keys.map String.toList :=
      List.mem_map_of_mem ((hkey _).mpr ⟨vhost, hvhost, name, hname, rfl⟩)
    rw [best_matching_none.mp hbest _ hmem] at hmatched
    cases hmatched
  | some best =>
    obtain ⟨pattern, matched⟩ := best
    obtain ⟨hpattern, hmatched, hgreatest⟩ := best_matching_some hbest
    obtain ⟨key, hkey_mem, rfl⟩ := List.mem_map.mp hpattern
    obtain ⟨vhost, hvhost, name, hname, rfl⟩ := (hkey key).mp hkey_mem
    obtain ⟨certs, hcerts⟩ := hholds.loaded vhost hvhost
    have hget : acceptor.all_certs.get (library.to_lowercase name) = some certs :=
      (get_eq_some hholds.names_apart).mpr
        ((hholds.rows _).mpr ⟨vhost, hvhost, hcerts, name, hname, rfl⟩)
    refine ⟨vhost, name, ⟨hvhost, hname, matched, hmatched, ?_⟩, ?_⟩
    · intro other hother other_name hother_name other_matched hother_matched
      exact hgreatest _ (List.mem_map_of_mem ((hkey _).mpr ⟨other, hother, other_name, hother_name, rfl⟩))
        other_matched hother_matched
    · rw [hcerts]
      dsimp only
      rw [String.ofList_toList, hget, Option.getD_some]

/-- Owners of one registered name have the same certificates. -/
theorem Holds.owner_certs_eq {all_certs : CertificatesByName Key}
    (h : Holds library files config listener all_certs) {vhost vhost' : VirtualHost}
    (hvhost : vhost ∈ owners config) (hvhost' : vhost' ∈ owners config) {name name' : String}
    (hname : name ∈ vhost.server_names) (hname' : name' ∈ vhost'.server_names)
    (hsame : library.to_lowercase name = library.to_lowercase name') :
    owner_certs library files listener vhost = owner_certs library files listener vhost' := by
  obtain ⟨certs, hcerts⟩ := h.loaded vhost hvhost
  obtain ⟨certs', hcerts'⟩ := h.loaded vhost' hvhost'
  have hget : all_certs.get (library.to_lowercase name) = some certs :=
    (get_eq_some h.names_apart).mpr
      ((h.rows _).mpr ⟨vhost, hvhost, hcerts, name, hname, rfl⟩)
  have hget' : all_certs.get (library.to_lowercase name') = some certs' :=
    (get_eq_some h.names_apart).mpr
      ((h.rows _).mpr ⟨vhost', hvhost', hcerts', name', hname', rfl⟩)
  rw [hsame, hget'] at hget
  rw [hcerts, hcerts', Option.some.inj hget]

/-! ## The virtual host of the same name -/

/-- The virtual host that a host is left to, the server block where no virtual host matches. -/
def LeftTo (config : ConfigSnapshot) (host : Text) (vhost : VirtualHost) : Prop :=
  (∃ index, FirstOffer VirtualHost.server_names config.vhosts host index vhost) ∨
    (NoOffer VirtualHost.server_names config.vhosts host ∧ vhost = config.default_vhost)

theorem leftTo_select (config : ConfigSnapshot) (host : Text) :
    LeftTo config host (select_vhost config.vhosts config.default_vhost host) :=
  select_vhost_spec config.vhosts config.default_vhost host

theorem LeftTo.unique {host : Text} {vhost vhost' : VirtualHost} (h : LeftTo config host vhost)
    (h' : LeftTo config host vhost') : vhost = vhost' := by
  rcases h with ⟨index, hfirst⟩ | ⟨hnone, hdefault⟩
  · rcases h' with ⟨index', hfirst'⟩ | ⟨hnone', _⟩
    · exact hfirst.unique hfirst'
    · exact absurd hnone' hfirst.not_noOffer
  · rcases h' with ⟨index', hfirst'⟩ | ⟨_, hdefault'⟩
    · exact absurd hnone hfirst'.not_noOffer
    · rw [hdefault, hdefault']

variable (library files listener config) in
/-- How a name comes to other certificates than those of the virtual host of the same host. -/
inductive Conflict (host : Text) : Prop
  /-- The best name is of the server block, which serves no host that a virtual host matches. -/
  | server_block (name : String) (index : Nat) (vhost : VirtualHost)
    (hsni : SniPrefers library.to_lowercase (owners config) host config.default_vhost name)
    (hhost : FirstOffer VirtualHost.server_names config.vhosts host index vhost)
    (hcerts : owner_certs library files listener config.default_vhost ≠
      owner_certs library files listener vhost)
  /-- An earlier virtual host has the other wildcard in front of the same suffix. -/
  | equal_priority (earlier index : Nat) (first vhost : VirtualHost) (first_name name : String)
    (hearlier : earlier < index)
    (hhost : FirstOffer VirtualHost.server_names config.vhosts host earlier first)
    (hfirst_name : first_name ∈ first.server_names)
    (hvhost : config.vhosts[index]? = some vhost)
    (hsni : SniPrefers library.to_lowercase (owners config) host vhost name)
    (hpair : WildcardPair (normalized_pattern first_name.toList) (normalized_pattern name.toList))
    (hcerts : owner_certs library files listener vhost ≠ owner_certs library files listener first)
  /-- The best name matches in lower case only: one of its letters is not of ASCII, unlike its
  small letter. -/
  | small_letters (name : String) (vhost served : VirtualHost)
    (hsni : SniPrefers library.to_lowercase (owners config) host vhost name)
    (hname : match_server_name name.toList host = none)
    (hserved : LeftTo config host served)
    (hcerts : owner_certs library files listener vhost ≠ owner_certs library files listener served)

/-- Names at two places of a list of virtual hosts are apart. -/
theorem normalized_ne {to_lowercase : String → String} {vhosts : List VirtualHost}
    (h : ((vhosts.flatMap fun vhost => vhost.server_names).map
      (normalized_name to_lowercase)).Nodup)
    {earlier index : Nat} {first vhost : VirtualHost} (hearlier : earlier < index)
    (hfirst : vhosts[earlier]? = some first) (hvhost : vhosts[index]? = some vhost)
    {first_name name : String} (hfirst_name : first_name ∈ first.server_names)
    (hname : name ∈ vhost.server_names) :
    normalized_name to_lowercase first_name ≠ normalized_name to_lowercase name := by
  rw [List.map_flatMap, List.nodup_flatMap] at h
  obtain ⟨hlt, rfl⟩ := List.getElem?_eq_some_iff.mp hfirst
  obtain ⟨hlt', rfl⟩ := List.getElem?_eq_some_iff.mp hvhost
  have hdisjoint := List.pairwise_iff_getElem.mp h.2 earlier index hlt hlt' hearlier
  intro hsame
  exact hdisjoint (List.mem_map_of_mem hfirst_name) (hsame ▸ List.mem_map_of_mem hname)

/-- Two names whose offers are equal are the two wildcards in front of one suffix. -/
theorem wildcardPair_of_offers {to_lowercase : String → String} (hlower : Lowercases to_lowercase)
    {host : Text} (hascii : Ascii host) {name name' : String} {matched matched' : ServerNameMatch}
    (hmatched : match_server_name name.toList host = some matched)
    (hmatched' : match_server_name name'.toList host = some matched')
    (hpriority : matched.priority = matched'.priority)
    (hne : normalized_name to_lowercase name ≠ normalized_name to_lowercase name') :
    WildcardPair (normalized_pattern name.toList) (normalized_pattern name'.toList) := by
  rcases (matchedBy_of_match hmatched).same_priority (ascii_normalize_host hascii)
    (matchedBy_of_match hmatched') hpriority with hsame | hpair
  · rw [← hlower.normalized_eq hascii hmatched, ← hlower.normalized_eq hascii hmatched'] at hsame
    exact absurd hsame hne
  · exact hpair

/-- The certificates differ exactly in a conflict. -/
theorem conflict_iff (hlower : Lowercases library.to_lowercase)
    {all_certs : CertificatesByName Key} (hholds : Holds library files config listener all_certs)
    (hapart : ((config.vhosts.flatMap fun vhost => vhost.server_names).map
      (normalized_name library.to_lowercase)).Nodup)
    {host : Text} (hascii : Ascii host) {vhost served : VirtualHost} {name : String}
    (hsni : SniPrefers library.to_lowercase (owners config) host vhost name)
    (hserved : LeftTo config host served) :
    Conflict library files config listener host ↔
      owner_certs library files listener vhost ≠ owner_certs library files listener served := by
  have hsame : ∀ vhost' name',
      SniPrefers library.to_lowercase (owners config) host vhost' name' →
        owner_certs library files listener vhost' = owner_certs library files listener vhost :=
    fun vhost' name' hsni' =>
      hholds.owner_certs_eq hsni'.owner hsni.owner hsni'.named hsni.named (hsni'.lower_eq hsni)
  constructor
  · rintro (⟨name', index, vhost', hsni', hhost, hcerts⟩ |
      ⟨earlier, index, first, vhost', first_name, name', _, hhost, _, _, hsni', _, hcerts⟩ |
      ⟨name', vhost', served', hsni', _, hserved', hcerts⟩)
    · rwa [← hsame _ _ hsni', hserved.unique (.inl ⟨index, hhost⟩)]
    · rwa [← hsame _ _ hsni', hserved.unique (.inl ⟨earlier, hhost⟩)]
    · rwa [← hsame _ _ hsni', hserved.unique hserved']
  · intro hcerts
    rcases List.mem_cons.mp hsni.owner with rfl | hvhost
    · rcases hserved with ⟨index, hfirst⟩ | ⟨_, rfl⟩
      · exact .server_block name index served hsni hfirst hcerts
      · exact absurd rfl hcerts
    obtain ⟨index, hindex⟩ := List.mem_iff_getElem?.mp hvhost
    cases hmatched : match_server_name name.toList host with
    | none => exact .small_letters name vhost served hsni hmatched hserved hcerts
    | some matched =>
      have hoffers : Offers host vhost.server_names matched.priority :=
        ⟨name, hsni.named, matched, hmatched, rfl⟩
      rcases hserved with ⟨earlier, hfirst⟩ | ⟨hnone, _⟩
      · obtain ⟨_, ⟨first_name, hfirst_name, first_matched, hfirst_matched, rfl⟩, hothers⟩ :=
          hfirst.best
        obtain ⟨hle, hlt⟩ := hothers index vhost hindex matched.priority hoffers
        -- The preferred name is at least as good as the names that the host goes by.
        have hge : first_matched.priority ≤ matched.priority := by
          obtain ⟨_, hlow, hgreatest⟩ := hsni.best
          rw [hlower.match_lowercase hascii hmatched] at hlow
          obtain rfl := Option.some.inj hlow
          exact match_order_le (hgreatest served
            (List.mem_cons_of_mem _ (List.mem_of_getElem? hfirst.declared)) first_name hfirst_name
            first_matched (hlower.match_lowercase hascii hfirst_matched))
        have hpriority : first_matched.priority = matched.priority := le_antisymm hge hle
        have hearlier : earlier < index := by
          rcases lt_trichotomy earlier index with hearlier | rfl | hlater
          · exact hearlier
          · rw [hfirst.declared] at hindex
            exact absurd (by rw [Option.some.inj hindex]) hcerts
          · exact absurd hpriority.symm (hlt hlater).ne
        refine .equal_priority earlier index served vhost first_name name hearlier hfirst hfirst_name
          hindex hsni ?_ hcerts
        exact wildcardPair_of_offers hlower hascii hfirst_matched hmatched hpriority
          (normalized_ne hapart hearlier hfirst.declared hindex hfirst_name hsni.named)
      · exact absurd hoffers (hnone vhost hvhost _)

theorem accepted_names_apart {raw : Config} (hcompile : compile raw = .ok config)
    (hnames : validate_all_server_names library.to_lowercase raw = .ok ()) :
    (((owners config).flatMap fun vhost => vhost.server_names).map
      (normalized_name library.to_lowercase)).Nodup := by
  have hcompiled : (config.vhosts.flatMap fun vhost => vhost.server_names) =
      raw.servers.flatMap fun vhost => vhost.server_names := by
    rw [(compile_ok hcompile).2.2, List.flatMap_def, List.flatMap_def]
    congr 1
    apply List.ext_getElem?
    intro index
    simp [compile_virtual_host, Function.comp_def]
  have hapart := names_apart hnames
  rw [owners, List.flatMap_cons, compile_default_vhost hcompile, hcompiled]
  exact hapart

/-- Names that are apart without their white space are apart in lower case. -/
theorem registered_nodup (hlower : Lowercases library.to_lowercase) {vhosts : List VirtualHost}
    (h : ((vhosts.flatMap fun vhost => vhost.server_names).map
      (normalized_name library.to_lowercase)).Nodup) :
    (registered_names library.to_lowercase vhosts).Nodup := by
  have hnormalized : normalized_name library.to_lowercase =
      (fun name : String => trim name.toList) ∘ library.to_lowercase :=
    funext hlower.trim
  rw [hnormalized, ← List.map_map] at h
  exact h.of_map _

/-- For a name that matches, the certificates of the handshake are those of the virtual host
that serves it, but for the three conflicts. -/
theorem certs_of_served_host_iff {raw : Config} (hcompile : compile raw = .ok config)
    (hnames : validate_all_server_names library.to_lowercase raw = .ok ())
    (hlower : Lowercases library.to_lowercase)
    (hbuild : build_listener_tls_acceptor library files config listener = .ok (some acceptor))
    (htls : ∀ vhost ∈ config.vhosts, vhost.tls.isSome = true)
    (hdefault : config.default_vhost.server_names ≠ [] → listener.server.tls.isSome = true)
    (hkeys : keys.Perm (acceptor.all_certs.map Prod.fst)) (hascii : Ascii server_name.toList)
    (hmatch : ∃ vhost ∈ owners config, ∃ name ∈ vhost.server_names, ∃ matched,
      match_server_name name.toList server_name.toList = some matched) :
    (∀ name ∈ (select_vhost config.vhosts config.default_vhost server_name.toList).server_names,
      acceptor.all_certs.get (library.to_lowercase name) =
        some (resolve_certs library keys acceptor server_name)) ↔
      ¬ Conflict library files config listener server_name.toList := by
  have hapart := accepted_names_apart hcompile hnames
  have hvhosts_apart : ((config.vhosts.flatMap fun vhost => vhost.server_names).map
      (normalized_name library.to_lowercase)).Nodup := by
    rw [owners, List.flatMap_cons, List.map_append] at hapart
    exact hapart.of_append_right
  have hholds : Holds library files config listener acceptor.all_certs :=
    built_holds hbuild (by rw [compile_default_vhost hcompile]) htls hdefault
      (registered_nodup hlower hapart)
  obtain ⟨owner, howner, own_name, hown_name, matched, hmatched⟩ := hmatch
  obtain ⟨vhost, name, hsni, hcerts⟩ := resolve_certs_spec hlower hholds hkeys hascii
    ⟨owner, howner, own_name, hown_name, matched, hlower.match_lowercase hascii hmatched⟩
  have hserved := leftTo_select config server_name.toList
  generalize select_vhost config.vhosts config.default_vhost server_name.toList = served at hserved
  rw [conflict_iff hlower hholds hvhosts_apart hascii hsni hserved, not_not, hcerts]
  -- The virtual host that serves the host owns names.
  have hserved_owner : served ∈ owners config ∧ served.server_names ≠ [] := by
    rcases hserved with ⟨index, hfirst⟩ | ⟨hnone, rfl⟩
    · obtain ⟨_, ⟨first_name, hfirst_name, _⟩, _⟩ := hfirst.best
      exact ⟨List.mem_cons_of_mem _ (List.mem_of_getElem? hfirst.declared),
        List.ne_nil_of_mem hfirst_name⟩
    · rcases List.mem_cons.mp howner with rfl | hvhost
      · exact ⟨List.mem_cons_self, List.ne_nil_of_mem hown_name⟩
      · exact absurd ⟨own_name, hown_name, matched, hmatched, rfl⟩ (hnone owner hvhost _)
  obtain ⟨certs, hserved_certs⟩ := hholds.loaded served hserved_owner.1
  have hget : ∀ name ∈ served.server_names,
      acceptor.all_certs.get (library.to_lowercase name) = some certs := fun name hname =>
    (get_eq_some hholds.names_apart).mpr
      ((hholds.rows _).mpr ⟨served, hserved_owner.1, hserved_certs, name, hname, rfl⟩)
  rw [hserved_certs]
  constructor
  · intro hsame
    obtain ⟨served_name, hserved_name⟩ := List.exists_mem_of_ne_nil _ hserved_owner.2
    have hresolved := hsame served_name hserved_name
    rw [hget served_name hserved_name] at hresolved
    rw [Option.some.inj hresolved]
  · intro hsame served_name hserved_name
    rw [hget served_name hserved_name, Except.ok.inj hsame]

/-! ## Two wildcards in front of one suffix -/

def secure_site (name cert_path : String) : VirtualHostConfig :=
  ⟨[⟨⟨.V4 0x7f000001#32, 8443⟩, true, false, false⟩], [name],
    some { cert_path, key_path := "key.pem" }, none⟩

def secure_sites : Config :=
  ⟨⟨none, 1⟩, [], ⟨none, none, none, [], none, none⟩,
    [secure_site ".example.com" "dot.pem", secure_site "*.example.com" "star.pem"]⟩

def secure_listener : Listener :=
  ⟨vhost_listener_id ⟨.V4 0x7f000001#32, 8443⟩, vhost_listener_name ⟨.V4 0x7f000001#32, 8443⟩,
    ⟨⟨.V4 0x7f000001#32, 8443⟩, some ".example.com", none⟩, true, none⟩

def secure_compiled : ConfigSnapshot :=
  ⟨⟨none, 1⟩, [secure_listener], ⟨"server", [], none⟩,
    secure_sites.servers.mapIdx fun index vhost => compile_virtual_host s!"servers[{index}]" vhost⟩

/-- A bundle of files is known by the path of its certificate. -/
def by_path : TlsLibrary Unit String Unit :=
  ⟨fun s => String.ofList (to_ascii_lowercase s.toList), fun _ bundle => .ok bundle.cert_path,
    fun _ _ => .ok ()⟩

def secure_acceptor : TlsAcceptor String Unit :=
  ⟨["dot.pem"], [(".example.com", ["dot.pem"]), ("*.example.com", ["star.pem"])],
    ["h2", "http/1.1"], ()⟩

theorem certs_of_served_host_iff_two_wildcards :
    (∀ name ∈ (select_vhost secure_compiled.vhosts secure_compiled.default_vhost
        "a.example.com".toList).server_names,
      secure_acceptor.all_certs.get (by_path.to_lowercase name) =
        some (resolve_certs by_path [".example.com", "*.example.com"] secure_acceptor
          "a.example.com")) ↔
      ¬ Conflict by_path () secure_compiled secure_listener "a.example.com".toList :=
  @certs_of_served_host_iff _ _ _ by_path () secure_compiled secure_listener secure_acceptor
    [".example.com", "*.example.com"] "a.example.com" secure_sites rfl rfl lowercases_ascii rfl
    (by decide) (by decide) (List.Perm.refl _) (by simp [Ascii])
    ⟨compile_virtual_host "servers[0]" (secure_site ".example.com" "dot.pem"), by decide,
      ".example.com", by decide, .DotWildcard 11, rfl⟩

/-- The certificate is that of the second virtual host, the host is left to the first. -/
theorem certificate_of_another_host :
    compile secure_sites = .ok secure_compiled ∧
      validate_all_server_names by_path.to_lowercase secure_sites = .ok () ∧
      secure_listener ∈ secure_compiled.listeners ∧
      build_listener_tls_acceptor by_path () secure_compiled secure_listener =
        .ok (some secure_acceptor) ∧
      (∀ vhost ∈ secure_compiled.vhosts, vhost.tls.isSome = true) ∧
      select_vhost secure_compiled.vhosts secure_compiled.default_vhost "a.example.com".toList =
        compile_virtual_host "servers[0]" (secure_site ".example.com" "dot.pem") ∧
      secure_acceptor.all_certs.get ".example.com" = some ["dot.pem"] ∧
      resolve_certs by_path [".example.com", "*.example.com"] secure_acceptor "a.example.com" =
        ["star.pem"] :=
  ⟨rfl, rfl, by decide, rfl, by decide, rfl, rfl, rfl⟩

end rginx.http
