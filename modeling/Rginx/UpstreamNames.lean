-- The names of upstreams, from `validate/upstream/basics.rs`, `compile/mod.rs`,
-- `compile/vhost.rs`, `compile/route.rs` and `compile/upstream.rs`: each virtual host may declare
-- upstreams of its own, and all compiled upstreams stand in one map.
import Rginx.ResultChains
import Rginx.RustText
import Rginx.SeparatedFields
import Rginx.TreeMaps

open rust_text rust_result tree_maps

namespace rginx.config.scopes

/-! ## The raw configuration -/

structure UpstreamConfig (S : Type) where
  name : Text
  settings : S

inductive HandlerConfig
  | Proxy (upstream : Text)
  | Return

structure LocationConfig where
  handler : HandlerConfig

structure VirtualHostConfig (S : Type) where
  upstreams : List (UpstreamConfig S)
  locations : List LocationConfig

structure Config (S : Type) where
  upstreams : List (UpstreamConfig S)
  locations : List LocationConfig
  servers : List (VirtualHostConfig S)

/-! ## Validation -/

section Validation

variable {S : Type}

def validate_upstream_name (upstream_names : List Text) (upstream : UpstreamConfig S) :
    Except String (List Text) :=
  if trim upstream.name = [] then .error "upstream name must not be empty"
  else if upstream.name ∈ upstream_names then
    .error s!"duplicate upstream `{String.ofList upstream.name}`"
  else .ok (upstream.name :: upstream_names)

def validate_upstreams (upstreams : List (UpstreamConfig S)) : Except String (List Text) :=
  upstreams.foldlM validate_upstream_name []

def validate_handler (scope_label : Option Text) (upstream_names : List Text) :
    HandlerConfig → Except String Unit
  | .Proxy upstream =>
    if trim upstream = [] then .error "proxy upstream name must not be empty"
    else if upstream ∉ upstream_names then
      .error (match scope_label with
        | some scope_label =>
          s!"{String.ofList scope_label} proxy upstream `{String.ofList upstream}` is not defined"
        | none => s!"proxy upstream `{String.ofList upstream}` is not defined")
    else .ok ()
  | .Return => .ok ()

def validate_locations (scope_label : Option Text) (locations : List LocationConfig)
    (upstream_names : List Text) : Except String Unit :=
  locations.forM fun location => validate_handler scope_label upstream_names location.handler

def vhost_label (index : Nat) : Text := "servers[".toList ++ decimal index ++ "]".toList

def validate_virtual_hosts (vhosts : List (VirtualHostConfig S))
    (global_upstream_names : List Text) : Except String Unit :=
  vhosts.zipIdx.forM fun (vhost, index) => do
    let local_upstream_names ← validate_upstreams vhost.upstreams
    validate_locations (some (vhost_label index)) vhost.locations
      (global_upstream_names ++ local_upstream_names)

/-- The checks of the names, and the others. -/
def validate (other_checks : Config S → Except String Unit) (config : Config S) :
    Except String Unit := do
  other_checks config
  let upstream_names ← validate_upstreams config.upstreams
  validate_locations none config.locations upstream_names
  validate_virtual_hosts config.servers upstream_names

end Validation

/-! ## Compiling -/

/-- Where upstreams are declared: beside the default server, or in a virtual host. -/
inductive Scope
  | server
  | servers (index : Nat)
  deriving DecidableEq

structure Upstream (U : Type) where
  name : Text
  settings : U

/-- A shared pointer, told from the others by where its upstream is declared. -/
structure Arc (α : Type) where
  allocation : Scope × Nat
  value : α

abbrev HashMap (V : Type) := Std.ExtTreeMap Text V compare

structure ProxyTarget (U : Type) where
  upstream_name : Text
  upstream : Arc (Upstream U)

inductive RouteAction (U : Type)
  | Proxy (target : ProxyTarget U)
  | Return

structure VirtualHost (U : Type) where
  id : Text
  routes : List (RouteAction U)

structure ConfigSnapshot (U : Type) where
  default_vhost : VirtualHost U
  vhosts : List (VirtualHost U)
  upstreams : HashMap (Arc (Upstream U))

section Compiling

variable {S U : Type}

def scoped_upstream_name (scope name : Text) : Text := scope ++ "::".toList ++ name

/-- The loop that collects the compiled upstreams of one scope. -/
def insert_compiled (upstreams : HashMap (Arc (Upstream U))) :
    List (Text × Arc (Upstream U)) → Except String (HashMap (Arc (Upstream U)))
  | [] => .ok upstreams
  | (name, upstream) :: compiled =>
    if name ∈ upstreams then .error s!"duplicate compiled upstream `{String.ofList name}`"
    else insert_compiled (upstreams.insert name upstream) compiled

/-- The closure of `compile_upstreams_with_names`, for the upstream at one index. -/
def compile_upstream (compile_settings : Text → S → Except String U) (scope : Scope)
    (name_mapper : Text → Text) (upstream : UpstreamConfig S) (index : Nat) :
    Except String (Text × Arc (Upstream U)) := do
  let name := name_mapper upstream.name
  let settings ← compile_settings name upstream.settings
  return (name, ⟨(scope, index), ⟨name, settings⟩⟩)

def compile_upstreams_with_names (compile_settings : Text → S → Except String U) (scope : Scope)
    (raw_upstreams : List (UpstreamConfig S)) (name_mapper : Text → Text) :
    Except String (HashMap (Arc (Upstream U))) := do
  let compiled ← raw_upstreams.zipIdx.mapM fun (upstream, index) =>
    compile_upstream compile_settings scope name_mapper upstream index
  insert_compiled ∅ compiled

def compile_route_action (handler : HandlerConfig) (upstreams : HashMap (Arc (Upstream U)))
    (local_upstream_names : HashMap Text) : Except String (RouteAction U) :=
  match handler with
  | .Proxy upstream => do
    let resolved_upstream := local_upstream_names[upstream]?.getD upstream
    let compiled ← ok_or s!"proxy upstream `{String.ofList upstream}` is not defined"
      upstreams[resolved_upstream]?
    return .Proxy ⟨resolved_upstream, compiled⟩
  | .Return => .ok .Return

def compile_routes_with_local (locations : List LocationConfig)
    (upstreams : HashMap (Arc (Upstream U))) (local_upstream_names : HashMap Text) :
    Except String (List (RouteAction U)) :=
  locations.mapM fun location => compile_route_action location.handler upstreams local_upstream_names

/-- The host, and its own upstreams. Entries of `extend` replace those of the same name. -/
def compile_virtual_host (compile_settings : Text → S → Except String U) (index : Nat)
    (config : VirtualHostConfig S) (upstreams : HashMap (Arc (Upstream U))) :
    Except String (VirtualHost U × HashMap (Arc (Upstream U))) := do
  let vhost_id := vhost_label index
  let local_upstream_names : HashMap Text := .ofList
    (config.upstreams.map fun upstream => (upstream.name, scoped_upstream_name vhost_id upstream.name))
  let local_upstreams ← compile_upstreams_with_names compile_settings (.servers index)
    config.upstreams (scoped_upstream_name vhost_id)
  let visible_upstreams := upstreams ∪ local_upstreams
  let routes ← compile_routes_with_local config.locations visible_upstreams local_upstream_names
  return (⟨vhost_id, routes⟩, local_upstreams)

def compile (other_checks : Config S → Except String Unit)
    (compile_settings : Text → S → Except String U) (raw : Config S) :
    Except String (ConfigSnapshot U) := do
  validate other_checks raw
  let upstreams ← compile_upstreams_with_names compile_settings .server raw.upstreams id
  let routes ← compile_routes_with_local raw.locations upstreams ∅
  let compiled_vhosts ← raw.servers.zipIdx.mapM fun (vhost, index) =>
    compile_virtual_host compile_settings index vhost upstreams
  return ⟨⟨"server".toList, routes⟩, compiled_vhosts.map Prod.fst,
    (compiled_vhosts.map Prod.snd).foldl (· ∪ ·) upstreams⟩

end Compiling

/-! ## What a name denotes -/

section Denotation

variable {S U : Type}

/-- The upstreams that a scope declares. -/
def Config.declared (config : Config S) : Scope → List (UpstreamConfig S)
  | .server => config.upstreams
  | .servers index => config.servers[index]?.elim [] (·.upstreams)

def Config.locations_of (config : Config S) : Scope → List LocationConfig
  | .server => config.locations
  | .servers index => config.servers[index]?.elim [] (·.locations)

def ConfigSnapshot.routes_of (snapshot : ConfigSnapshot U) : Scope → List (RouteAction U)
  | .server => snapshot.default_vhost.routes
  | .servers index => snapshot.vhosts[index]?.elim [] (·.routes)

def Config.declarations (config : Config S) : Nat :=
  config.upstreams.length + (config.servers.map (·.upstreams.length)).sum

/-- The name under which an upstream of the scope is compiled. -/
def Scope.compiled_name : Scope → Text → Text
  | .server => id
  | .servers index => scoped_upstream_name (vhost_label index)

/-- Where the upstream is declared that a name in a scope denotes: in the scope itself, or else
beside the default server. -/
inductive Denotes (config : Config S) (scope : Scope) (name : Text) : Scope × Nat → Prop
  | own {k : Nat} {upstream : UpstreamConfig S} (hdeclared : (config.declared scope)[k]? = some upstream)
      (hname : upstream.name = name) : Denotes config scope name (scope, k)
  | global {k : Nat} {upstream : UpstreamConfig S}
      (hnone : ∀ upstream ∈ config.declared scope, upstream.name ≠ name)
      (hdeclared : config.upstreams[k]? = some upstream) (hname : upstream.name = name) :
      Denotes config scope name (.server, k)

/-- Upstream names resolve to the upstream the route was compiled with. -/
structure Resolved (compile_settings : Text → S → Except String U) (config : Config S)
    (snapshot : ConfigSnapshot U) : Prop where
  found : ∀ scope target, .Proxy target ∈ snapshot.routes_of scope →
    snapshot.upstreams[target.upstream_name]? = some target.upstream
  denotes : ∀ (scope : Scope) (j : Nat) (name : Text),
    (config.locations_of scope)[j]? = some ⟨.Proxy name⟩ →
    ∃ target, (snapshot.routes_of scope)[j]? = some (.Proxy target) ∧
      Denotes config scope name target.upstream.allocation
  kept : ∀ (scope : Scope) (k : Nat) (upstream : UpstreamConfig S),
    (config.declared scope)[k]? = some upstream →
    ∃ settings, compile_settings (scope.compiled_name upstream.name) upstream.settings = .ok settings ∧
      snapshot.upstreams[scope.compiled_name upstream.name]? =
        some ⟨(scope, k), ⟨scope.compiled_name upstream.name, settings⟩⟩
  count : snapshot.upstreams.size = config.declarations

/-- No global upstream has the name that a virtual host gives to an upstream of its own. -/
def NamesApart (config : Config S) : Prop :=
  ∀ (index : Nat) (vhost : VirtualHostConfig S), config.servers[index]? = some vhost →
    ∀ upstream ∈ vhost.upstreams, ∀ global_upstream ∈ config.upstreams,
      global_upstream.name ≠ scoped_upstream_name (vhost_label index) upstream.name

end Denotation

/-! ## The names of a scope -/

/-- A scoped name tells the virtual host, and the name in it. -/
theorem scoped_upstream_name_inj {index index' : Nat} {name name' : Text}
    (h : scoped_upstream_name (vhost_label index) name =
      scoped_upstream_name (vhost_label index') name') : index = index' ∧ name = name' := by
  unfold scoped_upstream_name vhost_label at h
  simp only [List.append_assoc] at h
  have hclosed : ∀ n, ']' ∉ decimal n := notMem_decimal rfl
  obtain ⟨hindex, hname⟩ :=
    separated_fields.first_inj (hclosed index) (hclosed index') (List.append_cancel_left h)
  exact ⟨decimal_injective hindex, List.append_cancel_left hname⟩

section Scopes

variable {S U : Type} {compile_settings : Text → S → Except String U} {scope : Scope}
  {raw_upstreams : List (UpstreamConfig S)} {name_mapper : Text → Text}
  {upstreams : HashMap (Arc (Upstream U))}

theorem insert_compiled_eq_ok {start : HashMap (Arc (Upstream U))}
    {compiled : List (Text × Arc (Upstream U))} (h : insert_compiled start compiled = .ok upstreams) :
    (compiled.map (·.1)).Nodup ∧ (∀ row ∈ compiled, row.1 ∉ start) ∧
      upstreams = insertRows start compiled := by
  induction compiled generalizing start with
  | nil =>
    obtain rfl := Except.ok.inj h
    exact ⟨List.nodup_nil, nofun, rfl⟩
  | cons row compiled ih =>
    rw [insert_compiled] at h
    split at h
    · cases h
    · rename_i hnew
      obtain ⟨hnodup, hfresh, hrows⟩ := ih h
      refine ⟨List.nodup_cons.mpr ⟨fun hin => ?_, hnodup⟩, ?_, hrows⟩
      · obtain ⟨other, hother, hsame⟩ := List.mem_map.mp hin
        exact hfresh other hother (by simp [hsame])
      · intro other hother
        rcases List.mem_cons.mp hother with rfl | hother
        · exact hnew
        · exact fun hin => hfresh other hother (by simp [hin])

/-- What the map of one scope holds: an upstream for each one declared, under its own name. -/
structure ScopeRows (compile_settings : Text → S → Except String U) (scope : Scope)
    (raw_upstreams : List (UpstreamConfig S)) (name_mapper : Text → Text)
    (upstreams : HashMap (Arc (Upstream U))) : Prop where
  names : (raw_upstreams.map (·.name)).Nodup
  size : upstreams.size = raw_upstreams.length
  declared : ∀ (k : Nat) (upstream : UpstreamConfig S), raw_upstreams[k]? = some upstream →
    ∃ settings, compile_settings (name_mapper upstream.name) upstream.settings = .ok settings ∧
      upstreams[name_mapper upstream.name]? =
        some ⟨(scope, k), ⟨name_mapper upstream.name, settings⟩⟩
  rows : ∀ (name : Text) (upstream : Arc (Upstream U)), upstreams[name]? = some upstream →
    ∃ k raw, raw_upstreams[k]? = some raw ∧ name = name_mapper raw.name ∧
      upstream.allocation = (scope, k)

theorem compile_upstream_eq_ok {upstream : UpstreamConfig S} {index : Nat}
    {compiled : Text × Arc (Upstream U)} :
    compile_upstream compile_settings scope name_mapper upstream index = .ok compiled ↔
      ∃ settings, compile_settings (name_mapper upstream.name) upstream.settings = .ok settings ∧
        compiled = (name_mapper upstream.name,
          ⟨(scope, index), ⟨name_mapper upstream.name, settings⟩⟩) := by
  unfold compile_upstream
  simp only [bind_eq_ok, pure_eq_ok, Except.ok.injEq, eq_comm (b := compiled)]

theorem compile_upstreams_with_names_rows
    (h : compile_upstreams_with_names compile_settings scope raw_upstreams name_mapper = .ok upstreams) :
    ScopeRows compile_settings scope raw_upstreams name_mapper upstreams := by
  obtain ⟨compiled, hcompiled, h⟩ := bind_eq_ok.mp h
  obtain ⟨hnodup, hfresh, rfl⟩ := insert_compiled_eq_ok h
  have hkeys : compiled.map Prod.fst = raw_upstreams.zipIdx.map fun row => name_mapper row.1.name :=
    map_eq_of_mapM hcompiled fun row result hresult => by
      obtain ⟨settings, _, rfl⟩ := compile_upstream_eq_ok.mp hresult
      rfl
  have hnames : raw_upstreams.zipIdx.map (fun row => name_mapper row.1.name) =
      (raw_upstreams.map (·.name)).map name_mapper := by
    rw [List.map_map, ← List.zipIdx_map_fst 0 raw_upstreams, List.map_map, List.zipIdx_map_fst]
    rfl
  have hrows := forall₂_of_mapM hcompiled
  have hget := getElem?_insertRows_iff ∅ compiled hnodup hfresh
  refine ⟨?_, ?_, ?_, ?_⟩
  · rw [hkeys, hnames] at hnodup
    exact List.Nodup.of_map _ hnodup
  · rw [size_insertRows ∅ compiled hnodup hfresh, ← hrows.length_eq, List.length_zipIdx]
    exact Nat.zero_add _
  · intro k upstream hupstream
    have hin : (upstream, k) ∈ raw_upstreams.zipIdx := List.mem_zipIdx_iff_getElem?.mpr hupstream
    obtain ⟨row, hrow, hcompile⟩ := forall₂_mem hrows.flip hin
    obtain ⟨settings, hsettings, rfl⟩ := compile_upstream_eq_ok.mp hcompile
    exact ⟨settings, hsettings, (hget _ _).mpr (.inr hrow)⟩
  · intro name upstream hupstream
    have hrow := ((hget name upstream).mp hupstream).resolve_left (by simp)
    obtain ⟨⟨raw, k⟩, hraw, hcompile⟩ := forall₂_mem hrows hrow
    obtain ⟨settings, _, hcompiled⟩ := compile_upstream_eq_ok.mp hcompile
    obtain ⟨rfl, rfl⟩ := Prod.mk.inj hcompiled
    exact ⟨k, raw, List.mem_zipIdx_iff_getElem?.mp hraw, rfl, rfl⟩

theorem ScopeRows.mem_iff (h : ScopeRows compile_settings scope raw_upstreams name_mapper upstreams)
    (name : Text) : name ∈ upstreams ↔ ∃ raw ∈ raw_upstreams, name = name_mapper raw.name := by
  constructor
  · intro hin
    obtain ⟨k, raw, hraw, hname, _⟩ := h.rows name _ (Std.ExtTreeMap.getElem?_eq_some_getElem hin)
    exact ⟨raw, List.mem_of_getElem? hraw, hname⟩
  · rintro ⟨raw, hraw, rfl⟩
    obtain ⟨k, hk⟩ := List.getElem?_of_mem hraw
    obtain ⟨settings, _, hfound⟩ := h.declared k raw hk
    exact Std.ExtTreeMap.mem_iff_isSome_getElem?.mpr (by simp [hfound])

end Scopes

/-! ## What is accepted -/

section Accepted

variable {S U : Type}

theorem mem_validate_upstreams {upstreams : List (UpstreamConfig S)} {start names : List Text}
    (h : upstreams.foldlM validate_upstream_name start = .ok names) (name : Text) :
    name ∈ names ↔ name ∈ start ∨ ∃ upstream ∈ upstreams, upstream.name = name := by
  induction upstreams generalizing start with
  | nil =>
    obtain rfl := Except.ok.inj h
    simp
  | cons upstream upstreams ih =>
    rw [List.foldlM_cons] at h
    obtain ⟨next, hnext, h⟩ := bind_eq_ok.mp h
    unfold validate_upstream_name at hnext
    split at hnext
    · cases hnext
    split at hnext
    · cases hnext
    obtain rfl := Except.ok.inj hnext
    rw [ih h, List.mem_cons, List.exists_mem_cons_iff, eq_comm (b := upstream.name)]
    tauto

theorem validate_locations_names {scope_label : Option Text} {locations : List LocationConfig}
    {upstream_names : List Text} (h : validate_locations scope_label locations upstream_names = .ok ())
    {name : Text} (hname : ⟨.Proxy name⟩ ∈ locations) : name ∈ upstream_names := by
  have hlocation := forM_eq_ok.mp h _ hname
  simp only [validate_handler] at hlocation
  split at hlocation
  · cases hlocation
  split at hlocation
  · cases hlocation
  · rename_i hin
    exact not_not.mp hin

/-- A name that a virtual host uses is declared there, or beside the default server. -/
theorem validate_virtual_hosts_names {other_checks : Config S → Except String Unit}
    {config : Config S} (h : validate other_checks config = .ok ()) {index : Nat}
    {vhost : VirtualHostConfig S} (hvhost : config.servers[index]? = some vhost) {name : Text}
    (hname : ⟨.Proxy name⟩ ∈ vhost.locations) :
    (∃ upstream ∈ vhost.upstreams, upstream.name = name) ∨
      ∃ upstream ∈ config.upstreams, upstream.name = name := by
  obtain ⟨_, h⟩ := check_bind_eq_ok.mp h
  obtain ⟨upstream_names, hnames, h⟩ := bind_eq_ok.mp h
  obtain ⟨_, hvhosts⟩ := check_bind_eq_ok.mp h
  have hchecked := forM_eq_ok.mp hvhosts (vhost, index) (List.mem_zipIdx_iff_getElem?.mpr hvhost)
  obtain ⟨local_names, hlocals, hlocations⟩ := bind_eq_ok.mp hchecked
  have hin := validate_locations_names hlocations hname
  rw [List.mem_append, mem_validate_upstreams hnames, mem_validate_upstreams hlocals] at hin
  simpa [or_comm] using hin

/-- The route goes to the upstream that the scope sees under the name. -/
def Sees (config : Config S) (scope : Scope) (visible : HashMap (Arc (Upstream U))) (name : Text)
    (action : RouteAction U) : Prop :=
  ∃ target, action = .Proxy target ∧
    target.upstream_name =
      (if name ∈ (config.declared scope).map (·.name) then scope.compiled_name name else name) ∧
    visible[target.upstream_name]? = some target.upstream

def HandlerBuilt (config : Config S) (scope : Scope) (visible : HashMap (Arc (Upstream U)))
    (location : LocationConfig) (action : RouteAction U) : Prop :=
  match location.handler with
  | .Proxy name => Sees config scope visible name action
  | .Return => action = .Return

/-- How one scope was compiled: the map of its own upstreams, and its routes. -/
structure ScopeBuilt (compile_settings : Text → S → Except String U) (config : Config S)
    (globals : HashMap (Arc (Upstream U))) (scope : Scope) (own : HashMap (Arc (Upstream U)))
    (routes : List (RouteAction U)) : Prop where
  rows : ScopeRows compile_settings scope (config.declared scope) scope.compiled_name own
  used : ∀ name, ⟨.Proxy name⟩ ∈ config.locations_of scope →
    (∃ upstream ∈ config.declared scope, upstream.name = name) ∨
      ∃ upstream ∈ config.upstreams, upstream.name = name
  routes : List.Forall₂ (HandlerBuilt config scope (globals ∪ own)) (config.locations_of scope) routes

/-- The map that each scope adds. -/
def own_upstreams (globals : HashMap (Arc (Upstream U))) (locals : List (HashMap (Arc (Upstream U)))) :
    Scope → HashMap (Arc (Upstream U))
  | .server => globals
  | .servers index => locals[index]?.getD ∅

structure Built (compile_settings : Text → S → Except String U) (config : Config S)
    (snapshot : ConfigSnapshot U) (globals : HashMap (Arc (Upstream U)))
    (locals : List (HashMap (Arc (Upstream U)))) : Prop where
  upstreams : snapshot.upstreams = merged globals locals
  length : locals.length = config.servers.length
  each : ∀ scope, ScopeBuilt compile_settings config globals scope
    (own_upstreams globals locals scope) (snapshot.routes_of scope)

variable {compile_settings : Text → S → Except String U} {config : Config S}
  {snapshot : ConfigSnapshot U} {globals : HashMap (Arc (Upstream U))}
  {locals : List (HashMap (Arc (Upstream U)))} {scope : Scope}

/-- The table of local names, where each name is declared once. -/
theorem local_upstream_names_getD {raw_upstreams : List (UpstreamConfig S)}
    (hnames : (raw_upstreams.map (·.name)).Nodup) (name_mapper : Text → Text) (name : Text) :
    (Std.ExtTreeMap.ofList (raw_upstreams.map fun upstream => (upstream.name, name_mapper upstream.name))
      compare : HashMap Text)[name]?.getD name =
      if name ∈ raw_upstreams.map (·.name) then name_mapper name else name := by
  by_cases hin : name ∈ raw_upstreams.map (·.name)
  · obtain ⟨upstream, hupstream, rfl⟩ := List.mem_map.mp hin
    have hrow : (upstream.name, name_mapper upstream.name) ∈
        raw_upstreams.map fun upstream => (upstream.name, name_mapper upstream.name) :=
      List.mem_map.mpr ⟨upstream, hupstream, rfl⟩
    rw [if_pos hin, Std.ExtTreeMap.getElem?_ofList_of_mem Std.ReflCmp.compare_self ?_ hrow]
    · rfl
    · rw [List.pairwise_map]
      refine (List.pairwise_map.mp hnames).imp fun hne hsame => hne ?_
      exact Std.LawfulEqCmp.compare_eq_iff_eq.mp hsame
  · rw [if_neg hin, Std.ExtTreeMap.getElem?_ofList_of_contains_eq_false]
    · rfl
    · simpa using hin

theorem handlers_built {locations : List LocationConfig} {visible : HashMap (Arc (Upstream U))}
    {local_upstream_names : HashMap Text} {routes : List (RouteAction U)}
    (h : compile_routes_with_local locations visible local_upstream_names = .ok routes)
    (hnames : ∀ name, local_upstream_names[name]?.getD name =
      if name ∈ (config.declared scope).map (·.name) then scope.compiled_name name else name) :
    List.Forall₂ (HandlerBuilt config scope visible) locations routes := by
  refine (forall₂_of_mapM h).imp ?_
  rintro ⟨_ | _⟩ action haction
  · obtain ⟨compiled, hcompiled, haction⟩ := bind_eq_ok.mp haction
    exact ⟨_, (Except.ok.inj haction).symm, hnames _, ok_or_eq_ok.mp hcompiled⟩
  · exact (Except.ok.inj haction).symm

theorem server_built {routes : List (RouteAction U)} {upstream_names : List Text}
    (hvalid : validate_upstreams config.upstreams = .ok upstream_names)
    (hlocations : validate_locations none config.locations upstream_names = .ok ())
    (hglobals : compile_upstreams_with_names compile_settings .server config.upstreams id = .ok globals)
    (hroutes : compile_routes_with_local config.locations globals ∅ = .ok routes) :
    ScopeBuilt compile_settings config globals .server globals routes := by
  have hself : globals ∪ globals = globals := by
    apply Std.ExtTreeMap.ext_getElem?
    intro name
    rw [Std.ExtTreeMap.getElem?_union, Option.or_self]
  refine ⟨compile_upstreams_with_names_rows hglobals, fun name hname => .inl ?_, ?_⟩
  · have hin := validate_locations_names hlocations hname
    exact ((mem_validate_upstreams hvalid name).mp hin).resolve_left (by simp)
  · rw [hself]
    refine handlers_built hroutes fun name => ?_
    simp [Scope.compiled_name]

theorem virtual_host_built {other_checks : Config S → Except String Unit}
    (hvalid : validate other_checks config = .ok ()) {index : Nat} {vhost : VirtualHostConfig S}
    (hvhost : config.servers[index]? = some vhost) {result : VirtualHost U × HashMap (Arc (Upstream U))}
    (h : compile_virtual_host compile_settings index vhost globals = .ok result) :
    ScopeBuilt compile_settings config globals (.servers index) result.2 result.1.routes := by
  obtain ⟨local_upstreams, hlocals, h⟩ := bind_eq_ok.mp h
  obtain ⟨routes, hroutes, h⟩ := bind_eq_ok.mp h
  obtain rfl := Except.ok.inj h
  have hdeclared : config.declared (.servers index) = vhost.upstreams := by
    simp [Config.declared, hvhost]
  have hof : config.locations_of (.servers index) = vhost.locations := by
    simp [Config.locations_of, hvhost]
  have hrows := compile_upstreams_with_names_rows hlocals
  refine ⟨by rw [hdeclared]; exact hrows, ?_, ?_⟩
  · rw [hdeclared, hof]
    exact fun name hname => validate_virtual_hosts_names hvalid hvhost hname
  · rw [hof]
    refine handlers_built hroutes fun name => ?_
    rw [hdeclared]
    exact local_upstream_names_getD hrows.names _ name

theorem compile_built {other_checks : Config S → Except String Unit}
    (h : compile other_checks compile_settings config = .ok snapshot) :
    ∃ globals locals, Built compile_settings config snapshot globals locals := by
  obtain ⟨hvalid, h⟩ := check_bind_eq_ok.mp h
  obtain ⟨globals, hglobals, h⟩ := bind_eq_ok.mp h
  obtain ⟨routes, hroutes, h⟩ := bind_eq_ok.mp h
  obtain ⟨compiled_vhosts, hvhosts, h⟩ := bind_eq_ok.mp h
  obtain rfl := Except.ok.inj h
  have hbuilt := forall₂_of_mapM hvhosts
  have hlength : compiled_vhosts.length = config.servers.length := by
    rw [← hbuilt.length_eq, List.length_zipIdx]
  refine ⟨globals, compiled_vhosts.map Prod.snd, rfl, by rw [List.length_map, hlength], ?_⟩
  rintro (_ | index)
  · obtain ⟨_, hnames⟩ := check_bind_eq_ok.mp hvalid
    obtain ⟨upstream_names, hnames, hlocations⟩ := bind_eq_ok.mp hnames
    exact server_built hnames (check_bind_eq_ok.mp hlocations).1 hglobals hroutes
  · cases hvhost : config.servers[index]? with
    | none =>
      have hnone : compiled_vhosts[index]? = none := by
        rw [List.getElem?_eq_none_iff] at hvhost ⊢
        omega
      have hdeclared : config.declared (.servers index) = [] := by simp [Config.declared, hvhost]
      have hof : config.locations_of (.servers index) = [] := by simp [Config.locations_of, hvhost]
      refine ⟨?_, by simp [hof], ?_⟩
      · rw [hdeclared]
        exact ⟨List.nodup_nil, by simp [own_upstreams, hnone], by simp, by simp [own_upstreams, hnone]⟩
      · rw [hof]
        simp [ConfigSnapshot.routes_of, hnone]
    | some vhost =>
      have hrow : config.servers.zipIdx[index]? = some (vhost, index) := by
        rw [List.getElem?_zipIdx, hvhost, Option.map_some, Nat.zero_add]
      obtain ⟨result, hresult, hcompiled⟩ := getElem?_of_forall₂ hbuilt hrow
      have hscope := virtual_host_built hvalid hvhost hcompiled
      simpa only [own_upstreams, ConfigSnapshot.routes_of, List.getElem?_map, hresult,
        Option.map_some, Option.getD_some, Option.elim_some] using hscope

/-! ## Names that stay apart -/

theorem local_upstreams_mem {index : Nat} {name : Text}
    (hname : name ∈ own_upstreams globals locals (.servers index)) :
    own_upstreams globals locals (.servers index) ∈ locals := by
  simp only [own_upstreams] at hname ⊢
  cases hown : locals[index]? with
  | none => simp [hown] at hname
  | some own => exact List.mem_of_getElem? hown

theorem own_upstreams_mem {name : Text} (hname : name ∈ own_upstreams globals locals scope) :
    own_upstreams globals locals scope ∈ globals :: locals := by
  cases scope with
  | server => exact List.mem_cons_self
  | servers index => exact List.mem_cons_of_mem _ (local_upstreams_mem hname)

theorem Built.local_mem_iff (h : Built compile_settings config snapshot globals locals)
    {index : Nat} {vhost : VirtualHostConfig S} (hvhost : config.servers[index]? = some vhost)
    {own : HashMap (Arc (Upstream U))} (hown : locals[index]? = some own) (name : Text) :
    name ∈ own ↔ ∃ upstream ∈ vhost.upstreams,
      name = scoped_upstream_name (vhost_label index) upstream.name := by
  have hrows := (h.each (.servers index)).rows.mem_iff name
  simpa [own_upstreams, hown, Config.declared, hvhost, Scope.compiled_name] using hrows

theorem Built.apart_iff (h : Built compile_settings config snapshot globals locals) :
    (globals :: locals).Pairwise Apart ↔ NamesApart config := by
  have hglobals : ∀ name, name ∈ globals ↔ ∃ upstream ∈ config.upstreams, name = upstream.name :=
    (h.each .server).rows.mem_iff
  rw [List.pairwise_cons]
  constructor
  · rintro ⟨hapart, _⟩ index vhost hvhost upstream hupstream global_upstream hglobal hsame
    obtain ⟨own, hown⟩ : ∃ own, locals[index]? = some own :=
      ⟨_, List.getElem?_eq_getElem (h.length ▸ (List.getElem?_eq_some_iff.mp hvhost).1)⟩
    exact hapart own (List.mem_of_getElem? hown) global_upstream.name
      ((hglobals _).mpr ⟨global_upstream, hglobal, rfl⟩)
      ((h.local_mem_iff hvhost hown _).mpr ⟨upstream, hupstream, hsame⟩)
  · intro hnames
    have hvhosts : ∀ index own, locals[index]? = some own →
        ∃ vhost, config.servers[index]? = some vhost := fun index own hown =>
      ⟨_, List.getElem?_eq_getElem (h.length ▸ (List.getElem?_eq_some_iff.mp hown).1)⟩
    constructor
    · intro own hown name hin_globals hin
      obtain ⟨index, hindex⟩ := List.getElem?_of_mem hown
      obtain ⟨vhost, hvhost⟩ := hvhosts index own hindex
      obtain ⟨global_upstream, hglobal, rfl⟩ := (hglobals name).mp hin_globals
      obtain ⟨upstream, hupstream, hsame⟩ := (h.local_mem_iff hvhost hindex _).mp hin
      exact hnames index vhost hvhost upstream hupstream global_upstream hglobal hsame
    · rw [List.pairwise_iff_getElem]
      intro i j hi hj hlt name hin hin'
      have hown := List.getElem?_eq_getElem hi
      have hown' := List.getElem?_eq_getElem hj
      obtain ⟨vhost, hvhost⟩ := hvhosts i _ hown
      obtain ⟨vhost', hvhost'⟩ := hvhosts j _ hown'
      obtain ⟨upstream, _, hname⟩ := (h.local_mem_iff hvhost hown name).mp hin
      obtain ⟨upstream', _, hname'⟩ := (h.local_mem_iff hvhost' hown' name).mp hin'
      have hindex := (scoped_upstream_name_inj (hname.symm.trans hname')).1
      omega

theorem Built.count_iff (h : Built compile_settings config snapshot globals locals) :
    snapshot.upstreams.size = config.declarations ↔ (globals :: locals).Pairwise Apart := by
  have hsizes : locals.map (·.size) = config.servers.map (·.upstreams.length) := by
    apply List.ext_getElem (by simp [h.length])
    intro index hlocal hserver
    rw [List.length_map] at hlocal hserver
    have hsize := (h.each (.servers index)).rows.size
    simpa [own_upstreams, Config.declared, hlocal, hserver] using hsize
  have hserver : globals.size = config.upstreams.length := (h.each .server).rows.size
  rw [h.upstreams, ← size_merged_eq_iff, hsizes, hserver, Config.declarations]

/-- An upstream of a scope is found under its name where no other scope uses the name. -/
theorem Built.found (h : Built compile_settings config snapshot globals locals)
    (hapart : (globals :: locals).Pairwise Apart) {name : Text} {upstream : Arc (Upstream U)}
    (hown : (own_upstreams globals locals scope)[name]? = some upstream) :
    snapshot.upstreams[name]? = some upstream := by
  have hin : name ∈ own_upstreams globals locals scope :=
    Std.ExtTreeMap.mem_iff_isSome_getElem?.mpr (by simp [hown])
  rw [h.upstreams, getElem?_merged hapart (own_upstreams_mem hin) hin, hown]

/-- What a scope sees under a name is its own upstream of the name, and where it has none the one
beside the default server. -/
theorem Built.sees (h : Built compile_settings config snapshot globals locals)
    (hapart : (globals :: locals).Pairwise Apart) {name : Text}
    (hused : ⟨.Proxy name⟩ ∈ config.locations_of scope) {action : RouteAction U}
    (haction : Sees config scope (globals ∪ own_upstreams globals locals scope) name action) :
    ∃ target, action = .Proxy target ∧
      snapshot.upstreams[target.upstream_name]? = some target.upstream ∧
      Denotes config scope name target.upstream.allocation := by
  obtain ⟨target, rfl, hname, hfound⟩ := haction
  refine ⟨target, rfl, ?_⟩
  rw [Std.ExtTreeMap.getElem?_union] at hfound
  by_cases hlocal : name ∈ (config.declared scope).map (·.name)
  · -- The upstream of the scope is what the name denotes.
    rw [if_pos hlocal] at hname
    obtain ⟨upstream, hupstream, rfl⟩ := List.mem_map.mp hlocal
    obtain ⟨k, hk⟩ := List.getElem?_of_mem hupstream
    obtain ⟨settings, _, hown⟩ := (h.each scope).rows.declared k upstream hk
    rw [hname, hown, Option.some_or] at hfound
    rw [hname, ← Option.some.inj hfound]
    exact ⟨h.found hapart hown, .own hk rfl⟩
  · -- Only the map of the default server can hold the name.
    rw [if_neg hlocal] at hname
    have hnone : ∀ upstream ∈ config.declared scope, upstream.name ≠ name := fun upstream hupstream hsame =>
      hlocal (List.mem_map.mpr ⟨upstream, hupstream, hsame⟩)
    obtain ⟨upstream, hupstream, hsame⟩ := ((h.each scope).used name hused).resolve_left
      fun ⟨upstream, hupstream, hsame⟩ => hnone upstream hupstream hsame
    have hglobal : name ∈ globals :=
      ((h.each .server).rows.mem_iff name).mpr ⟨upstream, hupstream, hsame.symm⟩
    have hown : name ∉ own_upstreams globals locals scope := by
      intro hin
      cases scope with
      | server => exact hnone upstream hupstream hsame
      | servers index =>
        exact (List.pairwise_cons.mp hapart).1 _ (local_upstreams_mem hin) name hglobal hin
    rw [hname, Std.ExtTreeMap.getElem?_eq_none hown, Option.none_or] at hfound
    obtain ⟨k, raw, hk, hraw, hallocation⟩ := (h.each .server).rows.rows name _ hfound
    have hserver : (own_upstreams globals locals .server)[name]? = some target.upstream := hfound
    rw [hname, hallocation]
    exact ⟨h.found hapart hserver, .global hnone hk hraw.symm⟩

theorem Built.resolved (h : Built compile_settings config snapshot globals locals)
    (hapart : (globals :: locals).Pairwise Apart) : Resolved compile_settings config snapshot where
  found scope target htarget := by
    obtain ⟨⟨handler⟩, hlocation, hbuilt⟩ := forall₂_mem (h.each scope).routes htarget
    cases handler with
    | Proxy name =>
      obtain ⟨seen, hseen, hfound, _⟩ := h.sees hapart hlocation hbuilt
      rw [RouteAction.Proxy.inj hseen, hfound]
    | Return => cases hbuilt
  denotes scope j name hlocation := by
    obtain ⟨action, haction, hbuilt⟩ := getElem?_of_forall₂ (h.each scope).routes hlocation
    obtain ⟨target, rfl, _, hdenotes⟩ := h.sees hapart (List.mem_of_getElem? hlocation) hbuilt
    exact ⟨target, haction, hdenotes⟩
  kept scope k upstream hupstream := by
    obtain ⟨settings, hsettings, hown⟩ := (h.each scope).rows.declared k upstream hupstream
    exact ⟨settings, hsettings, h.found hapart hown⟩
  count := h.count_iff.mpr hapart

theorem Built.resolved_iff (h : Built compile_settings config snapshot globals locals) :
    Resolved compile_settings config snapshot ↔ NamesApart config := by
  rw [← h.apart_iff]
  exact ⟨fun hresolved => h.count_iff.mp hresolved.count, h.resolved⟩

/-- The names of an accepted configuration resolve, and no scope overwrites an upstream of another,
exactly where no global upstream has the name that a virtual host gives to one of its own. -/
theorem compile_resolves {other_checks : Config S → Except String Unit}
    (h : compile other_checks compile_settings config = .ok snapshot) :
    Resolved compile_settings config snapshot ↔ NamesApart config := by
  obtain ⟨globals, locals, hbuilt⟩ := compile_built h
  exact hbuilt.resolved_iff

end Accepted

/-- Two upstreams of one name, in the two scopes, and routes to both. -/
def same_name : Config Nat where
  upstreams := [⟨"api".toList, 1⟩]
  locations := [⟨.Proxy "api".toList⟩]
  servers := [⟨[⟨"api".toList, 2⟩], [⟨.Proxy "api".toList⟩, ⟨.Return⟩]⟩]

theorem compile_resolves_same_name :
    ∃ snapshot : ConfigSnapshot Nat, Resolved (fun _ settings => .ok settings) same_name snapshot ∧
      snapshot.upstreams.size = 2 := by
  obtain ⟨snapshot, h⟩ : ∃ snapshot : ConfigSnapshot Nat,
      compile (fun _ => .ok ()) (fun _ settings => .ok settings) same_name = .ok snapshot := ⟨_, rfl⟩
  have hapart : NamesApart same_name := by
    intro index vhost hvhost upstream hupstream global_upstream hglobal hsame
    rw [List.mem_singleton.mp hglobal] at hsame
    have hfirst : some 'a' = some 's' := congrArg List.head? hsame
    exact absurd hfirst (by decide)
  have hresolved := (compile_resolves h).mpr hapart
  exact ⟨snapshot, hresolved, hresolved.count⟩

/-- The name of the global upstream is the one under which the upstream of the virtual host is
compiled. -/
def shadowed : Config Nat where
  upstreams := [⟨"servers[0]::api".toList, 1⟩]
  locations := [⟨.Proxy "servers[0]::api".toList⟩]
  servers := [⟨[⟨"api".toList, 2⟩], [⟨.Return⟩]⟩]

/-- The route keeps the global upstream, and its name finds the one of the virtual host. -/
theorem shadowed_upstream_lost :
    ∃ (snapshot : ConfigSnapshot Nat) (target : ProxyTarget Nat) (found : Arc (Upstream Nat)),
      compile (fun _ => .ok ()) (fun _ settings => .ok settings) shadowed = .ok snapshot ∧
      snapshot.default_vhost.routes = [.Proxy target] ∧ target.upstream.allocation = (.server, 0) ∧
      snapshot.upstreams[target.upstream_name]? = some found ∧
      found.allocation = (.servers 0, 0) ∧
      ¬Resolved (fun _ settings => .ok settings) shadowed snapshot := by
  refine ⟨_, _, _, rfl, rfl, rfl, rfl, rfl, fun hresolved => ?_⟩
  exact absurd hresolved.count (by decide)

end rginx.config.scopes
