-- The connections to a peer at any moment, over every interleaving of requests:
-- `select_peers` reads the count of a peer, and the attempt that follows adds to
-- it later.
import Rginx.PeerHealth

open rust_net rust_text

namespace rginx.proxy

/-! ## The requests -/

/-- An endpoint that a request has selected: the active requests that it read of its peer, and the
attempts on the peer that others have started since. -/
structure Selection where
  endpoint : ResolvedUpstreamPeer
  active_requests : Nat
  started : Nat
  deriving DecidableEq

/-- `ActivePeerGuard`, with the request that holds it. -/
structure ActivePeerGuard where
  request : Nat
  endpoint : ResolvedUpstreamPeer
  peer : Option HealthCell
  deriving DecidableEq

/-- The registry, the guards that are alive, and the requests: the endpoints whose count was read,
and the ones that were found selectable. -/
structure ProxyWorld where
  registry : PeerHealthRegistry
  guards : List ActivePeerGuard
  counted : Nat → List Selection
  selected : Nat → List Selection

inductive ProxyEvent
  | ensure_endpoint (endpoint : ResolvedUpstreamPeer)
  | read_active_requests (request : Nat) (endpoint : ResolvedUpstreamPeer)
  | check_selectable (request : Nat) (selection : Selection) (now : Nat)
  | track_active_request (request : Nat) (selection : Selection)
  | drop_guard (guard : ActivePeerGuard)
  | record (peer_url : String) (result : PeerResult)

/-- Another request starts an attempt on the peer. -/
def Selection.attempted (peer_url : String) (selection : Selection) : Selection :=
  if selection.endpoint.logical_peer_url = peer_url then
    { selection with started := selection.started + 1 }
  else selection

/-- What `track_active_request` does to the notes of the requests. -/
def attempted (request : Nat) (peer_url : String) (notes : Nat → List Selection) :
    Nat → List Selection :=
  fun other => if other = request then notes other else (notes other).map (.attempted peer_url)

namespace ProxyWorld

def start (policy : PeerHealthPolicy) (peer_urls : List String) : ProxyWorld :=
  ⟨.from_config policy peer_urls, [], fun _ => [], fun _ => []⟩

/-- A request reads the count of an endpoint that it has ensured; it attempts an endpoint that it
has selected, and has no other guard then. -/
def Allows (endpoints : Set ResolvedUpstreamPeer) (world : ProxyWorld) : ProxyEvent → Prop
  | .ensure_endpoint endpoint => endpoint ∈ endpoints
  | .read_active_requests request endpoint =>
    endpoint ∈ endpoints ∧ (world.registry.endpoint_peers endpoint.endpoint_key).isSome ∧
      ∀ guard ∈ world.guards, guard.request ≠ request
  | .check_selectable request selection _ => selection ∈ world.counted request
  | .track_active_request request selection =>
    selection ∈ world.selected request ∧ ∀ guard ∈ world.guards, guard.request ≠ request
  | .drop_guard guard => guard ∈ world.guards
  | .record _ _ => True

def step (world : ProxyWorld) : ProxyEvent → ProxyWorld
  | .ensure_endpoint endpoint =>
    { world with
      registry :=
        world.registry.ensure_endpoint endpoint.endpoint_key endpoint.logical_peer_url }
  | .read_active_requests request endpoint =>
    { world with
      counted := Function.update world.counted request
        (⟨endpoint, world.registry.active_requests endpoint.logical_peer_url, 0⟩ ::
          world.counted request) }
  | .check_selectable request selection now =>
    if world.registry.endpoint_is_selectable selection.endpoint selection.active_requests now then
      { world with
        selected := Function.update world.selected request
          (selection :: world.selected request) }
    else world
  | .track_active_request request selection =>
    let (registry, peer) :=
      world.registry.track_active_request selection.endpoint.endpoint_key
    let peer_url := selection.endpoint.logical_peer_url
    { registry
      guards := ⟨request, selection.endpoint, peer⟩ :: world.guards
      counted := attempted request peer_url world.counted
      selected := attempted request peer_url world.selected }
  | .drop_guard guard =>
    { world with
      registry := world.registry.drop_guard guard.peer
      guards := world.guards.erase guard }
  | .record peer_url result =>
    { world with registry := RegistryCall.run world.registry (.record peer_url result) }

/-- The guards of a peer. -/
def alive (world : ProxyWorld) (peer_url : String) : Nat :=
  world.guards.countP fun guard => guard.endpoint.logical_peer_url = peer_url

/-- The guards of a peer with a limit. -/
def limited (world : ProxyWorld) (peer_url : String) (max_conns : Nat) : Nat :=
  world.guards.countP fun guard =>
    guard.endpoint.logical_peer_url = peer_url ∧ guard.endpoint.max_conns = some max_conns

/-- What the request read, and the attempts of others since, leave room for an attempt. -/
def Meets : ProxyEvent → Prop
  | .track_active_request _ selection =>
    ∀ max_conns ∈ selection.endpoint.max_conns,
      selection.active_requests + selection.started < max_conns
  | _ => True

/-- The worlds of the runs whose events meet a condition. -/
inductive Reached (policy : PeerHealthPolicy) (peer_urls : List String)
    (endpoints : Set ResolvedUpstreamPeer) (condition : ProxyEvent → Prop) : ProxyWorld → Prop
  | start : Reached policy peer_urls endpoints condition (start policy peer_urls)
  | step {world : ProxyWorld} (event : ProxyEvent)
      (hreached : Reached policy peer_urls endpoints condition world)
      (hallows : world.Allows endpoints event) (hcondition : condition event) :
      Reached policy peer_urls endpoints condition (world.step event)

end ProxyWorld

/-! ## The invariant -/

/-- The keys of the endpoints tell their peers apart. -/
structure KeysSeparate (peer_urls : List String) (endpoints : Set ResolvedUpstreamPeer) : Prop where
  urls : ∀ endpoint ∈ endpoints, endpoint.logical_peer_url ∈ peer_urls
  keys : ∀ endpoint ∈ endpoints, ∀ other ∈ endpoints,
    endpoint.endpoint_key = other.endpoint_key → endpoint.logical_peer_url = other.logical_peer_url
  logical : ∀ endpoint ∈ endpoints, ∀ peer_url ∈ peer_urls, endpoint.endpoint_key = peer_url →
    endpoint.logical_peer_url = peer_url

/-- The cells of a registry that has only seen these endpoints. -/
structure RegistryOk (peer_urls : List String) (endpoints : Set ResolvedUpstreamPeer)
    (registry : PeerHealthRegistry) : Prop where
  peers : registry.peers = peer_urls
  cells : ∀ key cell, registry.endpoint_peers key = some cell →
    ∃ endpoint ∈ endpoints, endpoint.endpoint_key = key ∧
      cell = .logical endpoint.logical_peer_url

/-- The notes of a request bound the guards that the others have on the peer. -/
structure NoteOk (endpoints : Set ResolvedUpstreamPeer) (world : ProxyWorld) (request : Nat)
    (selection : Selection) : Prop where
  endpoint : selection.endpoint ∈ endpoints
  ensured : (world.registry.endpoint_peers selection.endpoint.endpoint_key).isSome
  others : world.guards.countP (fun guard => guard.request ≠ request ∧
      guard.endpoint.logical_peer_url = selection.endpoint.logical_peer_url) ≤
    selection.active_requests + selection.started

structure ProxyWorld.Ok (peer_urls : List String) (endpoints : Set ResolvedUpstreamPeer)
    (world : ProxyWorld) : Prop where
  registry : RegistryOk peer_urls endpoints world.registry
  counts : ∀ peer_url, (world.registry.health (.logical peer_url)).active_requests =
    world.alive peer_url
  guards : ∀ guard ∈ world.guards, guard.peer = some (.logical guard.endpoint.logical_peer_url)
  counted : ∀ request, ∀ selection ∈ world.counted request,
    NoteOk endpoints world request selection
  selected : ∀ request, ∀ selection ∈ world.selected request,
    NoteOk endpoints world request selection
  below : ∀ request, ∀ selection ∈ world.selected request,
    ∀ max_conns ∈ selection.endpoint.max_conns, selection.active_requests < max_conns
  bounded : ∀ peer_url max_conns, world.limited peer_url max_conns ≤ max_conns

section Invariant

variable {peer_urls : List String} {endpoints : Set ResolvedUpstreamPeer}

theorem RegistryOk.get_health {registry : PeerHealthRegistry}
    (h : RegistryOk peer_urls endpoints registry) (hkeys : KeysSeparate peer_urls endpoints)
    {endpoint : ResolvedUpstreamPeer} (hendpoint : endpoint ∈ endpoints)
    (hensured : (registry.endpoint_peers endpoint.endpoint_key).isSome) :
    registry.get_health endpoint.endpoint_key = some (.logical endpoint.logical_peer_url) := by
  obtain ⟨cell, hcell⟩ := Option.isSome_iff_exists.mp hensured
  obtain ⟨other, hother, hkey, rfl⟩ := h.cells _ cell hcell
  unfold PeerHealthRegistry.get_health
  rw [hcell, hkeys.keys other hother endpoint hendpoint hkey]
  rfl

/-- The count of a peer is read from its own cell. -/
theorem RegistryOk.active_requests {registry : PeerHealthRegistry}
    (h : RegistryOk peer_urls endpoints registry) (hkeys : KeysSeparate peer_urls endpoints)
    {peer_url : String} (hpeer : peer_url ∈ peer_urls) :
    registry.active_requests peer_url = (registry.health (.logical peer_url)).active_requests := by
  have hcell : registry.get_health peer_url = some (.logical peer_url) := by
    unfold PeerHealthRegistry.get_health PeerHealthRegistry.get_logical_peer
    rcases hcell : registry.endpoint_peers peer_url with _ | cell
    · rw [h.peers, if_pos hpeer]
      rfl
    · obtain ⟨other, hother, hkey, rfl⟩ := h.cells _ cell hcell
      rw [hkeys.logical other hother peer_url hpeer hkey]
      rfl
  unfold PeerHealthRegistry.active_requests
  rw [hcell]
  rfl

theorem RegistryOk.ensure {registry : PeerHealthRegistry}
    (h : RegistryOk peer_urls endpoints registry) (hkeys : KeysSeparate peer_urls endpoints)
    {endpoint : ResolvedUpstreamPeer} (hendpoint : endpoint ∈ endpoints) :
    RegistryOk peer_urls endpoints
        (registry.ensure_endpoint endpoint.endpoint_key endpoint.logical_peer_url) ∧
      (registry.ensure_endpoint endpoint.endpoint_key endpoint.logical_peer_url).health =
        registry.health ∧
      ∀ key, (registry.endpoint_peers key).isSome →
        ((registry.ensure_endpoint endpoint.endpoint_key
          endpoint.logical_peer_url).endpoint_peers key).isSome := by
  unfold PeerHealthRegistry.ensure_endpoint
  split
  · exact ⟨h, rfl, fun _ hsome => hsome⟩
  · refine ⟨⟨h.peers, ?_⟩, rfl, ?_⟩
    · intro key cell hcell
      dsimp only at hcell
      by_cases hkey : key = endpoint.endpoint_key
      · subst hkey
        rw [Function.update_self] at hcell
        obtain rfl := Option.some.inj hcell
        refine ⟨endpoint, hendpoint, rfl, ?_⟩
        unfold PeerHealthRegistry.get_logical_peer
        rw [h.peers, if_pos (hkeys.urls endpoint hendpoint)]
        rfl
      · rw [Function.update_of_ne hkey] at hcell
        exact h.cells key cell hcell
    · intro key hsome
      dsimp only
      by_cases hkey : key = endpoint.endpoint_key
      · subst hkey
        rw [Function.update_self]
        rfl
      · rwa [Function.update_of_ne hkey]

theorem record_active_requests (policy : PeerHealthPolicy) (health : PeerHealth)
    (result : PeerResult) : (health.record policy result).active_requests =
      health.active_requests := by
  cases result with
  | success => rfl
  | failure now => rfl
  | active_failure => rfl
  | active_success required =>
    unfold PeerHealth.record PeerHealth.record_active_success
    dsimp only
    split <;> rfl

end Invariant

section Steps

variable {peer_urls : List String} {endpoints : Set ResolvedUpstreamPeer} {world : ProxyWorld}

/-- The notes hold in a world with the same guards and no fewer keys. -/
theorem NoteOk.of_same {world' : ProxyWorld} {request : Nat} {selection : Selection}
    (h : NoteOk endpoints world request selection) (hguards : world'.guards = world.guards)
    (hkeys : ∀ key, (world.registry.endpoint_peers key).isSome →
      (world'.registry.endpoint_peers key).isSome) :
    NoteOk endpoints world' request selection :=
  ⟨h.endpoint, hkeys _ h.ensured, hguards ▸ h.others⟩

theorem ProxyWorld.Ok.ensure (h : world.Ok peer_urls endpoints)
    (hkeys : KeysSeparate peer_urls endpoints) {endpoint : ResolvedUpstreamPeer}
    (hendpoint : endpoint ∈ endpoints) :
    (world.step (.ensure_endpoint endpoint)).Ok peer_urls endpoints := by
  obtain ⟨hregistry, hhealth, hmore⟩ := h.registry.ensure hkeys hendpoint
  refine ⟨hregistry, ?_, h.guards, ?_, ?_, ?_, h.bounded⟩
  · intro peer_url
    change ((world.registry.ensure_endpoint _ _).health _).active_requests = _
    rw [hhealth]
    exact h.counts peer_url
  · exact fun request selection hmem => (h.counted request selection hmem).of_same rfl hmore
  · exact fun request selection hmem => (h.selected request selection hmem).of_same rfl hmore
  · exact h.below

theorem ProxyWorld.Ok.read (h : world.Ok peer_urls endpoints)
    (hkeys : KeysSeparate peer_urls endpoints) {request : Nat} {endpoint : ResolvedUpstreamPeer}
    (hendpoint : endpoint ∈ endpoints)
    (hensured : (world.registry.endpoint_peers endpoint.endpoint_key).isSome) :
    (world.step (.read_active_requests request endpoint)).Ok peer_urls endpoints := by
  refine ⟨h.registry, h.counts, h.guards, ?_, ?_, h.below, h.bounded⟩
  · intro other selection hmem
    unfold step at hmem
    dsimp only at hmem
    by_cases hrequest : other = request
    · subst hrequest
      rw [Function.update_self] at hmem
      rcases List.mem_cons.mp hmem with rfl | hmem
      · refine ⟨hendpoint, hensured, ?_⟩
        dsimp only
        rw [h.registry.active_requests hkeys (hkeys.urls endpoint hendpoint), h.counts]
        refine (List.countP_mono_left ?_).trans (Nat.le_add_right _ _)
        intro guard _ hguard
        simp only [decide_eq_true_eq] at hguard ⊢
        exact hguard.2
      · exact (h.counted other selection hmem).of_same rfl fun _ hsome => hsome
    · rw [Function.update_of_ne hrequest] at hmem
      exact (h.counted other selection hmem).of_same rfl fun _ hsome => hsome
  · exact fun other selection hmem => (h.selected other selection hmem).of_same rfl
      fun _ hsome => hsome

theorem ProxyWorld.Ok.check (h : world.Ok peer_urls endpoints) {request : Nat}
    {selection : Selection} (hcounted : selection ∈ world.counted request) (now : Nat) :
    (world.step (.check_selectable request selection now)).Ok peer_urls endpoints := by
  unfold step
  dsimp only
  split
  · rename_i hselectable
    refine ⟨h.registry, h.counts, h.guards, ?_, ?_, ?_, h.bounded⟩
    · exact fun other note hmem => (h.counted other note hmem).of_same rfl fun _ hsome => hsome
    · intro other note hmem
      dsimp only at hmem
      by_cases hrequest : other = request
      · subst hrequest
        rw [Function.update_self] at hmem
        rcases List.mem_cons.mp hmem with rfl | hmem
        · exact (h.counted other note hcounted).of_same rfl fun _ hsome => hsome
        · exact (h.selected other note hmem).of_same rfl fun _ hsome => hsome
      · rw [Function.update_of_ne hrequest] at hmem
        exact (h.selected other note hmem).of_same rfl fun _ hsome => hsome
    · intro other note hmem max_conns hmax
      dsimp only at hmem
      by_cases hrequest : other = request
      · subst hrequest
        rw [Function.update_self] at hmem
        rcases List.mem_cons.mp hmem with rfl | hmem
        · unfold PeerHealthRegistry.endpoint_is_selectable at hselectable
          split at hselectable
          · cases hselectable
          · rw [Option.mem_def.mp hmax] at hselectable
            simpa using hselectable
        · exact h.below other note hmem max_conns hmax
      · rw [Function.update_of_ne hrequest] at hmem
        exact h.below other note hmem max_conns hmax
  · exact h

theorem ProxyWorld.Ok.record (h : world.Ok peer_urls endpoints) (peer_url : String)
    (result : PeerResult) :
    (world.step (.record peer_url result)).Ok peer_urls endpoints := by
  unfold step
  dsimp only
  rw [record_eq]
  split
  · exact h
  · rename_i cell hcell
    refine ⟨⟨h.registry.peers, h.registry.cells⟩, ?_, h.guards, ?_, ?_, h.below, h.bounded⟩
    · intro other
      dsimp only
      have hcount := h.counts other
      by_cases hsame : HealthCell.logical other = cell
      · rw [hsame, Function.update_self, record_active_requests, ← hsame]
        exact hcount
      · rw [Function.update_of_ne hsame]
        exact hcount
    · exact fun other note hmem => (h.counted other note hmem).of_same rfl fun _ hsome => hsome
    · exact fun other note hmem => (h.selected other note hmem).of_same rfl fun _ hsome => hsome

theorem ProxyWorld.Ok.drop (h : world.Ok peer_urls endpoints) {guard : ActivePeerGuard}
    (hguard : guard ∈ world.guards) :
    (world.step (.drop_guard guard)).Ok peer_urls endpoints := by
  have hperm := List.perm_cons_erase hguard
  have hcount : ∀ p : ActivePeerGuard → Bool,
      world.guards.countP p = (world.guards.erase guard).countP p + if p guard then 1 else 0 := by
    intro p
    rw [hperm.countP_eq, List.countP_cons]
  have hpeer := h.guards guard hguard
  unfold step
  dsimp only
  rw [hpeer]
  refine ⟨⟨h.registry.peers, h.registry.cells⟩, ?_, ?_, ?_, ?_, h.below, ?_⟩
  · intro peer_url
    have hbefore := h.counts peer_url
    have hsplit := hcount fun guard => guard.endpoint.logical_peer_url = peer_url
    unfold ProxyWorld.alive at hbefore ⊢
    simp only [PeerHealthRegistry.drop_guard]
    by_cases hsame : guard.endpoint.logical_peer_url = peer_url
    · subst hsame
      rw [Function.update_self, PeerHealth.decrement_active_requests]
      simp only [decide_true, if_true] at hsplit
      dsimp only
      omega
    · rw [Function.update_of_ne (by simpa using Ne.symm hsame), hbefore, hsplit]
      simp [hsame]
  · exact fun other hother => h.guards other (List.mem_of_mem_erase hother)
  · intro request note hmem
    have hnote := h.counted request note hmem
    refine ⟨hnote.endpoint, hnote.ensured, ?_⟩
    exact (List.erase_sublist.countP_le).trans hnote.others
  · intro request note hmem
    have hnote := h.selected request note hmem
    refine ⟨hnote.endpoint, hnote.ensured, ?_⟩
    exact (List.erase_sublist.countP_le).trans hnote.others
  · intro peer_url max_conns
    exact (List.erase_sublist.countP_le).trans (h.bounded peer_url max_conns)

/-- The notes of the other requests count an attempt. -/
theorem NoteOk.attempted (registry : PeerHealthRegistry) {request other : Nat}
    {endpoint : ResolvedUpstreamPeer} {peer : Option HealthCell}
    {counted selected : Nat → List Selection} {notes : Nat → List Selection}
    (hmore : ∀ key, (world.registry.endpoint_peers key).isSome →
      (registry.endpoint_peers key).isSome)
    (hnotes : ∀ note ∈ notes other, NoteOk endpoints world other note) :
    ∀ note ∈ proxy.attempted request endpoint.logical_peer_url notes other,
      NoteOk endpoints ⟨registry, ⟨request, endpoint, peer⟩ :: world.guards, counted, selected⟩ other
        note := by
  intro note hnote
  unfold proxy.attempted at hnote
  split at hnote
  · rename_i hsame
    have hok := hnotes note hnote
    refine ⟨hok.endpoint, hmore _ hok.ensured, ?_⟩
    rw [List.countP_cons_of_neg (by simp [hsame])]
    exact hok.others
  · obtain ⟨note, hmem, rfl⟩ := List.mem_map.mp hnote
    have hok := hnotes note hmem
    unfold Selection.attempted
    split
    · rename_i hurl
      refine ⟨hok.endpoint, hmore _ hok.ensured, ?_⟩
      have hothers := hok.others
      rw [List.countP_cons]
      dsimp only
      split <;> omega
    · rename_i hurl
      refine ⟨hok.endpoint, hmore _ hok.ensured, ?_⟩
      rw [List.countP_cons_of_neg (by simp [Ne.symm hurl])]
      exact hok.others

theorem ProxyWorld.Ok.track (h : world.Ok peer_urls endpoints)
    (hkeys : KeysSeparate peer_urls endpoints) {request : Nat} {selection : Selection}
    (hselected : selection ∈ world.selected request)
    (hsingle : ∀ guard ∈ world.guards, guard.request ≠ request)
    (hmeets : Meets (.track_active_request request selection)) :
    (world.step (.track_active_request request selection)).Ok peer_urls endpoints := by
  have hnote := h.selected request selection hselected
  have hcell := h.registry.get_health hkeys hnote.endpoint hnote.ensured
  unfold step
  dsimp only
  unfold PeerHealthRegistry.track_active_request PeerHealthRegistry.with_health
  rw [hcell]
  dsimp only
  refine ⟨⟨h.registry.peers, h.registry.cells⟩, ?_, ?_, ?_, ?_, ?_, ?_⟩
  · intro peer_url
    have hbefore := h.counts peer_url
    unfold ProxyWorld.alive at hbefore ⊢
    dsimp only
    rw [List.countP_cons]
    by_cases hsame : selection.endpoint.logical_peer_url = peer_url
    · subst hsame
      rw [Function.update_self, PeerHealth.increment_active_requests]
      simp [hbefore]
    · rw [Function.update_of_ne (by simpa using Ne.symm hsame), hbefore]
      simp [hsame]
  · intro guard hguard
    rcases List.mem_cons.mp hguard with rfl | hguard
    · rfl
    · exact h.guards guard hguard
  · exact fun other => NoteOk.attempted _ (fun _ hsome => hsome) (h.counted other)
  · exact fun other => NoteOk.attempted _ (fun _ hsome => hsome) (h.selected other)
  · intro other note hnote max_conns hmax
    dsimp only at hnote
    unfold attempted at hnote
    split at hnote
    · exact h.below other note hnote max_conns hmax
    · obtain ⟨note, hmem, rfl⟩ := List.mem_map.mp hnote
      have hbelow := h.below other note hmem max_conns
      unfold Selection.attempted at hmax ⊢
      split at hmax
      · rw [if_pos (by assumption)]
        exact hbelow hmax
      · rw [if_neg (by assumption)]
        exact hbelow hmax
  · intro peer_url max_conns
    have hbefore := h.bounded peer_url max_conns
    unfold ProxyWorld.limited at hbefore ⊢
    dsimp only
    rw [List.countP_cons]
    split
    · rename_i hlimit
      simp only [decide_eq_true_eq] at hlimit
      obtain ⟨rfl, hmax⟩ := hlimit
      -- the request has no guard of its own, so all guards of the peer are those of others
      have hothers := hnote.others
      have hroom := hmeets max_conns hmax
      have hmono : world.guards.countP (fun guard =>
          guard.endpoint.logical_peer_url = selection.endpoint.logical_peer_url ∧
            guard.endpoint.max_conns = some max_conns) ≤
          world.guards.countP (fun guard => guard.request ≠ request ∧
            guard.endpoint.logical_peer_url = selection.endpoint.logical_peer_url) := by
        refine List.countP_mono_left ?_
        intro guard hguard hsame
        simp only [decide_eq_true_eq] at hsame ⊢
        exact ⟨hsingle guard hguard, hsame.1⟩
      omega
    · omega

theorem ProxyWorld.Ok.step (h : world.Ok peer_urls endpoints)
    (hkeys : KeysSeparate peer_urls endpoints) {event : ProxyEvent}
    (hallows : world.Allows endpoints event) (hmeets : Meets event) :
    (world.step event).Ok peer_urls endpoints := by
  cases event with
  | ensure_endpoint endpoint => exact h.ensure hkeys hallows
  | read_active_requests request endpoint => exact h.read hkeys hallows.1 hallows.2.1
  | check_selectable request selection now => exact h.check hallows now
  | track_active_request request selection => exact h.track hkeys hallows.1 hallows.2 hmeets
  | drop_guard guard => exact h.drop hallows
  | record peer_url result => exact h.record peer_url result

theorem ProxyWorld.start_ok (policy : PeerHealthPolicy) :
    (ProxyWorld.start policy peer_urls).Ok peer_urls endpoints :=
  ⟨⟨rfl, nofun⟩, fun _ => rfl, nofun, nofun, nofun, nofun, fun _ _ => Nat.zero_le _⟩

theorem ProxyWorld.Reached.ok {policy : PeerHealthPolicy}
    (hkeys : KeysSeparate peer_urls endpoints) (h : Reached policy peer_urls endpoints Meets world) :
    world.Ok peer_urls endpoints := by
  induction h with
  | start => exact start_ok policy
  | step event _ hallows hmeets ih => exact ih.step hkeys hallows hmeets

/-- An attempt that no other request has come before meets the condition. -/
theorem ProxyWorld.Ok.meets (h : world.Ok peer_urls endpoints) {request : Nat}
    {selection : Selection} (hselected : selection ∈ world.selected request)
    (halone : selection.started = 0) : Meets (.track_active_request request selection) := by
  intro max_conns hmax
  rw [halone]
  exact h.below request selection hselected max_conns hmax

end Steps

/-! ## The limit -/

theorem cons_append_inj {c : Char} {left left' right right' : Text} (hleft : c ∉ left)
    (hleft' : c ∉ left') (h : left ++ c :: right = left' ++ c :: right') : left = left' := by
  have hreverse : right.reverse ++ c :: left.reverse = right'.reverse ++ c :: left'.reverse := by
    simpa using congrArg List.reverse h
  have hsame := (append_cons_inj (by simpa using hleft) (by simpa using hleft') hreverse).2
  exact List.reverse_injective hsame

/-- URLs without a bar keep the keys of their endpoints apart. -/
theorem keys_separate {peers : List PeerAddressing} (addresses : PeerAddressing → Set IpAddr)
    (hbars : ∀ peer ∈ peers, '|' ∉ peer.logical_peer_url.toList) :
    KeysSeparate (peers.map PeerAddressing.logical_peer_url) (endpoints_of peers addresses) := by
  have hkey : ∀ peer ip, (build_endpoint peer ip).endpoint_key.toList = peer.logical_peer_url.toList ∨
      ∃ dial, (build_endpoint peer ip).endpoint_key.toList =
        peer.logical_peer_url.toList ++ '|' :: dial := by
    intro peer ip
    unfold build_endpoint
    dsimp only
    split
    · exact .inl rfl
    · exact .inr ⟨(socket_addr_authority ip peer.port).toList, by simp⟩
  refine ⟨?_, ?_, ?_⟩
  · rintro endpoint ⟨peer, hpeer, ip, -, rfl⟩
    exact List.mem_map_of_mem hpeer
  · rintro endpoint ⟨peer, hpeer, ip, -, rfl⟩ other ⟨peer', hpeer', ip', -, rfl⟩ hsame
    have hlist := congrArg String.toList hsame
    refine String.toList_inj.mp ?_
    change peer.logical_peer_url.toList = peer'.logical_peer_url.toList
    rcases hkey peer ip with hplain | ⟨dial, hplain⟩ <;>
    rcases hkey peer' ip' with hplain' | ⟨dial', hplain'⟩
    · rw [← hplain, ← hplain', hlist]
    · refine absurd ?_ (hbars peer hpeer)
      rw [← hplain, hlist, hplain']
      simp
    · refine absurd ?_ (hbars peer' hpeer')
      rw [← hplain', ← hlist, hplain]
      simp
    · rw [hplain, hplain'] at hlist
      exact cons_append_inj (hbars peer hpeer) (hbars peer' hpeer') hlist
  · rintro endpoint ⟨peer, hpeer, ip, -, rfl⟩ peer_url hurl hsame
    obtain ⟨peer', hpeer', rfl⟩ := List.mem_map.mp hurl
    have hlist := congrArg String.toList hsame
    refine String.toList_inj.mp ?_
    change peer.logical_peer_url.toList = peer'.logical_peer_url.toList
    rcases hkey peer ip with hplain | ⟨dial, hplain⟩
    · rw [← hplain, hlist]
    · refine absurd ?_ (hbars peer' hpeer')
      rw [← hlist, hplain]
      simp

/-- No peer has more connections than its limit, in every run in which each attempt comes while
the count that its request read, and the attempts that other requests have started on the peer
since, are together below the limit. -/
theorem max_conns_is_kept (policy : PeerHealthPolicy) (peers : List PeerAddressing)
    (hbars : ∀ peer ∈ peers, '|' ∉ peer.logical_peer_url.toList) (world : ProxyWorld)
    (hreached : ProxyWorld.Reached policy (peers.map PeerAddressing.logical_peer_url)
      (endpoints_of peers fun _ => Set.univ) ProxyWorld.Meets world) (peer_url : String)
    (max_conns : Nat) :
    world.limited peer_url max_conns ≤ max_conns :=
  (hreached.ok (keys_separate _ hbars)).bounded peer_url max_conns

/-! ## Two requests at once -/

/-- A peer that is to have one connection. -/
def oneConnection : PeerAddressing :=
  ⟨"10.0.0.1", 80, "10.0.0.1:80", "http://10.0.0.1:80", 1, some 1⟩

def oneEndpoint : ResolvedUpstreamPeer := build_endpoint oneConnection (.V4 0x0a000001)

/-- The world after a run of one request, and then of another one. -/
def firstSelects : ProxyWorld :=
  (((ProxyWorld.start three_failures [oneConnection.logical_peer_url]).step
    (.ensure_endpoint oneEndpoint)).step (.read_active_requests 0 oneEndpoint)).step
      (.check_selectable 0 ⟨oneEndpoint, 0, 0⟩ 0)

def bothSelect : ProxyWorld :=
  (firstSelects.step (.read_active_requests 1 oneEndpoint)).step
    (.check_selectable 1 ⟨oneEndpoint, 0, 0⟩ 0)

def bothAttempt : ProxyWorld :=
  (bothSelect.step (.track_active_request 0 ⟨oneEndpoint, 0, 0⟩)).step
    (.track_active_request 1 ⟨oneEndpoint, 0, 1⟩)

theorem oneEndpoint_mem :
    oneEndpoint ∈ endpoints_of [oneConnection] fun _ => (Set.univ : Set IpAddr) :=
  ⟨oneConnection, List.mem_singleton_self _, .V4 0x0a000001, trivial, rfl⟩

theorem firstSelects_reached {condition : ProxyEvent → Prop}
    (hcondition : ∀ event, ProxyWorld.Meets event → condition event) :
    ProxyWorld.Reached three_failures [oneConnection.logical_peer_url]
      (endpoints_of [oneConnection] fun _ => Set.univ) condition firstSelects := by
  refine .step _ (.step _ (.step _ .start oneEndpoint_mem ?_) ⟨oneEndpoint_mem, ?_, ?_⟩ ?_) ?_ ?_
  · exact hcondition _ trivial
  · decide +kernel
  · nofun
  · exact hcondition _ trivial
  · exact List.mem_cons_self
  · exact hcondition _ trivial

theorem firstSelects_selected : ⟨oneEndpoint, 0, 0⟩ ∈ firstSelects.selected 0 := by
  decide +kernel

theorem one_request_has_one_connection :
    (firstSelects.step (.track_active_request 0 ⟨oneEndpoint, 0, 0⟩)).limited
      oneConnection.logical_peer_url 1 ≤ 1 := by
  have hbars : ∀ peer ∈ [oneConnection], '|' ∉ peer.logical_peer_url.toList := by decide
  have hreached : ProxyWorld.Reached three_failures [oneConnection.logical_peer_url]
      (endpoints_of [oneConnection] fun _ => Set.univ) ProxyWorld.Meets firstSelects :=
    firstSelects_reached fun _ h => h
  have hmeets := (hreached.ok (keys_separate _ hbars)).meets firstSelects_selected rfl
  refine max_conns_is_kept three_failures [oneConnection] hbars _ ?_ _ _
  exact .step (.track_active_request 0 ⟨oneEndpoint, 0, 0⟩) hreached
    ⟨firstSelects_selected, nofun⟩ hmeets

/-- Both requests read the count before either adds to it. -/
theorem two_requests_exceed_the_limit :
    ¬ ∀ world, ProxyWorld.Reached three_failures [oneConnection.logical_peer_url]
        (endpoints_of [oneConnection] fun _ => Set.univ) (fun _ => True) world →
      world.limited oneConnection.logical_peer_url 1 ≤ 1 := by
  intro h
  have htwo := h bothAttempt ?_
  · exact absurd htwo (by decide +kernel)
  refine .step _ (.step _ (.step _ (.step _ (firstSelects_reached fun _ _ => trivial)
    ⟨oneEndpoint_mem, ?_, nofun⟩ trivial) ?_ trivial) ⟨?_, nofun⟩ trivial) ⟨?_, ?_⟩ trivial
  · decide +kernel
  · exact List.mem_cons_self
  · decide +kernel
  · decide +kernel
  · decide +kernel

end rginx.proxy
