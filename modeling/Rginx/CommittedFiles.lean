-- The files of a live entry: in every order of the sections of the operations
-- of a zone, an entry of the index has its two files on the disk, as long as
-- the steps that run without the io lock, or without a look at the disk, meet
-- a hash that is not in use.
import Rginx.CacheFiles
import Rginx.IndexRuns

open tree_maps atomic_sections

namespace rginx.cache

/-! ## Live hashes -/

theorem live_of_subset {index index' : CacheIndex} {hash : String}
    (h : ∀ (key : String) (entry : CacheIndexEntry), index'.entries[key]? = some entry →
      index.entries[key]? = some entry) (hlive : index'.Live hash) : index.Live hash := by
  obtain ⟨key, entry, hentry, hkind, hhash⟩ := hlive
  exact ⟨key, entry, h key entry hentry, hkind, hhash⟩

theorem RowsLeft.live {index index' : CacheIndex} {rows : List (String × CacheIndexEntry)}
    (h : RowsLeft index index' rows) {hash : String} (hlive : index'.Live hash) :
    index.Live hash := by
  refine live_of_subset ?_ hlive
  intro key entry hentry
  rw [h.entries, getElem?_eraseKeys] at hentry
  split at hentry
  · cases hentry
  · exact hentry

theorem drop_entry_live {index : CacheIndex} {key hash : String}
    (hlive : (drop_entry index key).1.Live hash) : index.Live hash := by
  rcases he : index.entries[key]? with _ | entry
  · rw [drop_entry_of_none he] at hlive
    exact hlive
  · exact (drop_entry_left he).live hlive

theorem before_insert_live {index : CacheIndex} {key hash : String} {entry : CacheIndexEntry}
    {replaced_entry : Option (String × CacheIndexEntry)}
    (hlive : (before_insert index key entry replaced_entry).Live hash) : index.Live hash :=
  (drop_entries_left _ _).live ((drop_entries_left _ _).live hlive)

/-- The one new entry of a store is its own. -/
theorem store_live {index : CacheIndex} (h : index.Ok) {hot : HotEntries}
    {max_size_bytes : Option Nat} {key hash : String} {entry : CacheIndexEntry}
    {replaced_entry : Option (String × CacheIndexEntry)}
    (hlive : (update_index_after_store hot max_size_bytes index key entry
      replaced_entry).index.Live hash) :
    index.Live hash ∨ (entry.kind = .Response ∧ entry.hash = hash) := by
  have hafter := after_insert_ok h key entry replaced_entry
  have hevicted := settled_left (eviction_candidates_left hot hafter.loop max_size_bytes)
  rw [update_index_after_store_index] at hlive
  obtain ⟨key', entry', hentry, hkind, hhash⟩ := hevicted.live hlive
  have hinsert : (after_insert index key entry replaced_entry).entries =
      (before_insert index key entry replaced_entry).entries.insert key entry := by
    simp [after_insert, CacheIndex.remove_admission_count]
  rw [hinsert, getElem?_insert_eq] at hentry
  split at hentry
  · obtain rfl := Option.some.inj hentry
    exact Or.inr ⟨hkind, hhash⟩
  · exact Or.inl (before_insert_live ⟨key', entry', hentry, hkind, hhash⟩)

theorem live_is_referenced {index : CacheIndex} (h : index.Ok) {hash : String}
    (hlive : index.Live hash) : index.hash_is_referenced hash = true := by
  obtain ⟨key, entry, hentry, -, hhash⟩ := hlive
  have hpos := (references_pos index.entries hash).mpr ⟨key, entry, hentry, hhash⟩
  simpa [CacheIndex.hash_is_referenced, h.refs.count] using hpos

/-- A removal that says that the files may go leaves no entry with their hash. -/
theorem removed_is_not_live {index : CacheIndex} (h : index.Ok) {key hash : String}
    {expected_entry : CacheIndexEntry}
    (hremoved : (remove_zone_index_entry_if_matches index key expected_entry).2.2 =
      some ⟨hash, true⟩) :
    ¬ (remove_zone_index_entry_if_matches index key expected_entry).1.Live hash := by
  rcases remove_zone_index_entry_if_matches_cases index key expected_entry with
    ⟨current, -, -, hrun⟩ | hrun
  · rw [hrun] at hremoved ⊢
    simp only [Option.some.injEq, RemovedIndexEntry.mk.injEq, Bool.not_eq_true'] at hremoved
    obtain ⟨rfl, hunreferenced⟩ := hremoved
    intro hlive
    rw [live_is_referenced (drop_entry_ok h key) hlive] at hunreferenced
    cases hunreferenced
  · rw [hrun] at hremoved
    cases hremoved

/-! ## One section -/

/-- The hash whose files are being put in place: the section is between the first of them and
the entry that names them. -/
def ZoneSection.publishes : ZoneSection → Option String
  | .rename_metadata hash => some hash
  | .update_index_after_store _ entry _ => if entry.kind = .Response then some entry.hash else none
  | _ => none

section Sections

variable {env : FileEnv}

theorem effect_ok {zone : ZoneFiles} (h : zone.index.Ok) (part : ZoneSection)
    (outcome : SectionOutcome) : (part.effect env outcome zone).index.Ok := by
  unfold ZoneSection.effect
  split
  case h_6 =>
    split
    · exact LocalCall.run_ok h _
    · exact h
  all_goals
    split
    · exact h
    · exact h

theorem effect_live {zone : ZoneFiles} (h : zone.index.Ok) {part : ZoneSection}
    {outcome : SectionOutcome} {hash : String}
    (hlive : (part.effect env outcome zone).index.Live hash) :
    zone.index.Live hash ∨ ∃ key entry replaced_entry,
      part = .update_index_after_store key entry replaced_entry ∧ entry.kind = .Response ∧
        entry.hash = hash := by
  cases part with
  | read_index => exact Or.inl hlive
  | update_index_after_store key entry replaced_entry =>
    rcases store_live h hlive with hbefore | ⟨hkind, hhash⟩
    · exact Or.inl hbefore
    · exact Or.inr ⟨key, entry, replaced_entry, rfl, hkind, hhash⟩
  | remove_zone_index_entry_if_matches key expected_entry =>
    left
    simp only [ZoneSection.effect, ZoneSection.call, LocalCall.run] at hlive
    rcases remove_zone_index_entry_if_matches_cases zone.index key expected_entry with
      ⟨current, -, -, hrun⟩ | hrun
    · rw [hrun] at hlive
      exact drop_entry_live hlive
    · rw [hrun] at hlive
      exact hlive
  | purge_zone_entries order selector => exact Or.inl ((drop_entries_left _ _).live hlive)
  | cleanup_inactive_batch now inactive_ms batch_size =>
    left
    simp only [ZoneSection.effect, ZoneSection.call, LocalCall.run] at hlive
    rw [cleanup_inactive_batch_index _ h.loop] at hlive
    exact (settled_left (inactive_cleanup_candidates_left _ h.loop now inactive_ms _)).live hlive
  | write_metadata_tmp => exact Or.inl hlive
  | rename_body hash' =>
    left
    simp only [ZoneSection.effect] at hlive
    split at hlive <;> exact hlive
  | rename_metadata hash' =>
    left
    simp only [ZoneSection.effect] at hlive
    split at hlive <;> exact hlive
  | write_cache_metadata hash' =>
    left
    simp only [ZoneSection.effect] at hlive
    split at hlive <;> exact hlive
  | build_cached_response hash' => exact Or.inl hlive
  | remove_file file hash' =>
    left
    cases file <;> simp only [ZoneSection.effect] at hlive <;> split at hlive <;> exact hlive

/-- Only a removal takes a file away. -/
theorem effect_present {zone : ZoneFiles} {part : ZoneSection} {outcome : SectionOutcome}
    {hash : String} (hne : ∀ file, part ≠ .remove_file file hash) :
    (hash ∈ zone.metadata → hash ∈ (part.effect env outcome zone).metadata) ∧
      (hash ∈ zone.body → hash ∈ (part.effect env outcome zone).body) := by
  unfold ZoneSection.effect
  split
  case h_6 => split <;> exact ⟨id, id⟩
  case h_4 hash' =>
    have hother : hash ≠ hash' := fun he => hne .metadata (by rw [he])
    split <;> simp [hother]
  case h_5 hash' =>
    have hother : hash ≠ hash' := fun he => hne .body (by rw [he])
    split <;> simp [hother]
  all_goals split <;> simp +contextual

end Sections

/-! ## The outline of the operations -/

section Outlines

variable (env : FileEnv)

/-- The condition on a step, in the world before it. A file is removed by a task that holds the
io lock of its hash, or while no entry is live under the hash and no other task is putting the
files of the hash in place. A refresh writes its metadata beside a body that is there. The last
rename of a commit fails only when no entry is live under the hash. -/
def ZoneWorld.allows (world : ZoneWorld) (task : Nat) (part : ZoneSection)
    (outcome : SectionOutcome) : Prop :=
  match part with
  | .remove_file _ hash =>
    world.holder (env.stripe hash) = some task ∨
      (¬ world.state.index.Live hash ∧
        ∀ other part next, world.programs other = .run part next → part.publishes ≠ some hash)
  | .write_cache_metadata hash => outcome.ok = true → hash ∈ world.state.body
  | .rename_metadata hash => outcome.ok = false → ¬ world.state.index.Live hash
  | _ => True

/-- What a task needs before a section. -/
def ZoneSection.Needs (held : Option Nat) (part : ZoneSection) (zone : ZoneFiles) : Prop :=
  match part with
  | .rename_metadata hash => held = some (env.stripe hash) ∧ hash ∈ zone.body
  | .update_index_after_store _ entry _ =>
    entry.kind = .Response →
      held = some (env.stripe entry.hash) ∧ entry.hash ∈ zone.metadata ∧ entry.hash ∈ zone.body
  | .remove_file _ hash => held = some (env.stripe hash) → ¬ zone.index.Live hash
  | _ => True

variable {env}

/-- A file that is removed belongs to no live entry. -/
theorem removed_not_live {world : ZoneWorld} {task : Nat} {held : Option Nat} {file : CacheFile}
    {hash : String} {outcome : SectionOutcome} (hholds : world.Holds task held)
    (hneeds : (ZoneSection.remove_file file hash).Needs env held world.state)
    (hallows : world.allows env task (.remove_file file hash) outcome) :
    ¬ world.state.index.Live hash := by
  rcases hallows with hholder | ⟨hlive, -⟩
  · exact hneeds ((hholds _).mp hholder)
  · exact hlive

theorem section_keeps {world : ZoneWorld} {task : Nat} {held : Option Nat} {part : ZoneSection}
    {outcome : SectionOutcome} (hholds : world.Holds task held)
    (h : world.state.index.Ok ∧ world.state.FilesPresent)
    (hneeds : part.Needs env held world.state) (hallows : world.allows env task part outcome) :
    (part.effect env outcome world.state).index.Ok ∧
      (part.effect env outcome world.state).FilesPresent := by
  refine ⟨effect_ok h.1 part outcome, ?_⟩
  intro hash hlive
  rcases effect_live h.1 hlive with hbefore | ⟨key, entry, replaced_entry, rfl, hkind, rfl⟩
  · have hne : ∀ file, part ≠ .remove_file file hash := by
      rintro file rfl
      exact removed_not_live hholds hneeds hallows hbefore
    obtain ⟨hmetadata, hbody⟩ := h.2 hash hbefore
    exact ⟨(effect_present hne).1 hmetadata, (effect_present hne).2 hbody⟩
  · obtain ⟨-, hmetadata, hbody⟩ := hneeds hkind
    have hne : ∀ file, ZoneSection.update_index_after_store key entry replaced_entry ≠
        .remove_file file entry.hash := by simp
    exact ⟨(effect_present hne).1 hmetadata, (effect_present hne).2 hbody⟩

/-- A task does not remove the files that another one is putting in place: that one holds the
io lock. -/
theorem not_removed_by_other {world : ZoneWorld} {task other : Nat} {held : Option Nat}
    {part part' : ZoneSection} {outcome : SectionOutcome} {hash : String}
    {next : SectionOutcome → ZoneFiles → ZoneTask} (hne : other ≠ task)
    (hholds : world.Holds task held) (hother : world.Holds other (some (env.stripe hash)))
    (hprogram : world.programs other = .run part' next) (hpublishes : part'.publishes = some hash)
    (hallows : world.allows env task part outcome) (file : CacheFile) :
    part ≠ .remove_file file hash := by
  rintro rfl
  rcases hallows with hholder | ⟨-, hnone⟩
  · exact hholds.ne hother hne ((hholds _).mp hholder)
  · exact hnone other part' next hprogram hpublishes

theorem section_spares {world : ZoneWorld} {task other : Nat} {held held' : Option Nat}
    {part part' : ZoneSection} {outcome : SectionOutcome}
    {next : SectionOutcome → ZoneFiles → ZoneTask} (hne : other ≠ task)
    (hholds : world.Holds task held) (hother : world.Holds other held')
    (hprogram : world.programs other = .run part' next)
    (h : world.state.index.Ok ∧ world.state.FilesPresent)
    (hneeds : part.Needs env held world.state) (hallows : world.allows env task part outcome)
    (hneeds' : part'.Needs env held' world.state) :
    part'.Needs env held' (part.effect env outcome world.state) := by
  cases part' with
  | rename_metadata hash =>
    obtain ⟨rfl, hbody⟩ := hneeds'
    have hkept := not_removed_by_other hne hholds hother hprogram rfl hallows
    exact ⟨rfl, (effect_present hkept).2 hbody⟩
  | update_index_after_store key entry replaced_entry =>
    intro hkind
    obtain ⟨rfl, hmetadata, hbody⟩ := hneeds' hkind
    have hpublishes : (ZoneSection.update_index_after_store key entry replaced_entry).publishes =
        some entry.hash := if_pos hkind
    have hkept := not_removed_by_other hne hholds hother hprogram hpublishes hallows
    exact ⟨rfl, (effect_present hkept).1 hmetadata, (effect_present hkept).2 hbody⟩
  | remove_file file hash =>
    rintro rfl hlive
    rcases effect_live h.1 hlive with hbefore | ⟨key, entry, replaced_entry, rfl, hkind, rfl⟩
    · exact hneeds' rfl hbefore
    · exact hholds.ne hother hne (hneeds hkind).1
  | _ => trivial

variable (env) in
/-- The outline of the operations of a zone. -/
def zoneOutline : Outline (ZoneSection.effect env) (ZoneWorld.allows env) where
  Invariant zone := zone.index.Ok ∧ zone.FilesPresent
  Needs := ZoneSection.Needs env
  keeps := section_keeps
  spares := section_spares

/-! ## The tasks follow the outline -/

/-- Two removals in a row: what the first needs, the second still finds. -/
theorem removals_follow {held : Option Nat} {hash : String} {next : ZoneTask}
    (h : next.Sound (zoneOutline env) held) (first second : CacheFile) :
    Program.Follows (zoneOutline env) held
      (.run (.remove_file first hash) fun _ _ => .run (.remove_file second hash) fun _ _ => next) := by
  intro world task outcome hholds hinv hneeds hallows
  refine ⟨?_, ?_⟩
  · intro hheld hlive
    rcases effect_live hinv.1 hlive with hbefore | ⟨_, _, _, hpart, -⟩
    · exact hneeds hheld hbefore
    · cases hpart
  · intro world task outcome hholds hinv hneeds hallows
    exact ⟨h.ready _ ((zoneOutline env).keeps hholds hinv hneeds hallows), h.follows⟩

theorem remove_cache_files_if_unreferenced_sound (hash : String) {next : ZoneTask}
    (h : next.Sound (zoneOutline env) none) :
    (remove_cache_files_if_unreferenced env hash next).Sound (zoneOutline env) none := by
  refine Program.Sound.acquire ⟨fun _ _ => trivial, ?_⟩
  intro world task outcome hholds hinv hneeds hallows
  dsimp only
  split
  · exact ⟨trivial, (Program.Sound.release h).follows⟩
  · rename_i hunreferenced
    refine ⟨?_, removals_follow (Program.Sound.release h) _ _⟩
    intro hheld hlive
    exact hunreferenced (live_is_referenced hinv.1 hlive)

theorem remove_each_if_unreferenced_sound (hashes : List String) :
    (remove_each_if_unreferenced env hashes).Sound (zoneOutline env) none := by
  induction hashes with
  | nil => exact Program.Sound.done
  | cons hash hashes ih => exact remove_cache_files_if_unreferenced_sound hash ih

theorem remove_all_if_unreferenced_sound (removed_hashes : Finset String) :
    (remove_all_if_unreferenced env removed_hashes).Sound (zoneOutline env) none :=
  remove_each_if_unreferenced_sound _

theorem remove_cache_entry_if_matches_sound (key : String) (expected_entry : CacheIndexEntry) :
    (remove_cache_entry_if_matches env key expected_entry).Sound (zoneOutline env) none := by
  refine Program.Sound.acquire ⟨fun _ _ => trivial, ?_⟩
  intro world task outcome hholds hinv hneeds hallows
  dsimp only
  split
  · rename_i hash hremoved
    refine ⟨?_, removals_follow (Program.Sound.release Program.Sound.done) _ _⟩
    intro hheld
    exact removed_is_not_live hinv.1 hremoved
  · exact ⟨trivial, (Program.Sound.release Program.Sound.done).follows⟩

/-- A marker has no files, and so its store needs nothing. -/
theorem marker_store_sound {held : Option Nat} {key : String} {entry : CacheIndexEntry}
    (hkind : entry.kind = .HitForPass) (replaced_entry : Option (String × CacheIndexEntry))
    {next : Finset String → ZoneTask} (h : ∀ hashes, (next hashes).Sound (zoneOutline env) held) :
    (run_update_index_after_store env key entry replaced_entry next).Sound (zoneOutline env)
      held := by
  refine Program.Sound.run ?_ fun outcome zone => h _
  intro state _ hresponse
  rw [hkind] at hresponse
  cases hresponse

theorem store_follows {held : Option Nat} {key : String} {entry : CacheIndexEntry}
    (replaced_entry : Option (String × CacheIndexEntry)) {next : Finset String → ZoneTask}
    (h : ∀ hashes, (next hashes).Sound (zoneOutline env) held) :
    (run_update_index_after_store env key entry replaced_entry next).Follows (zoneOutline env)
      held := by
  intro world task outcome hholds hinv hneeds hallows
  exact ⟨(h _).ready _ ((zoneOutline env).keeps hholds hinv hneeds hallows), (h _).follows⟩

/-- The last rename of a commit: both files are there after it, and when it fails no entry is
live under them. -/
theorem rename_metadata_follows {hash : String} {committed failed : ZoneTask}
    (hready : ∀ zone : ZoneFiles, hash ∈ zone.metadata → hash ∈ zone.body →
      committed.Ready (zoneOutline env) (some (env.stripe hash)) zone)
    (hcommitted : committed.Follows (zoneOutline env) (some (env.stripe hash)))
    (hfailed : failed.Sound (zoneOutline env) (some (env.stripe hash))) :
    Program.Follows (zoneOutline env) (some (env.stripe hash))
      (.run (.rename_metadata hash) fun outcome _ =>
        if outcome.ok then committed else cleanup_failed_write hash true failed) := by
  intro world task outcome hholds hinv hneeds hallows
  dsimp only
  split
  · rename_i hok
    refine ⟨hready _ ?_ ?_, hcommitted⟩
    · simp [ZoneSection.effect, hok]
    · simpa [ZoneSection.effect, hok] using hneeds.2
  · rename_i hfails
    refine ⟨?_, removals_follow hfailed _ _⟩
    intro hheld hlive
    rcases effect_live hinv.1 hlive with hbefore | ⟨_, _, _, hpart, -⟩
    · exact hallows (by simpa using hfails) hbefore
    · cases hpart

theorem commit_cache_entry_temp_body_sound {hash : String} {committed failed : ZoneTask}
    (hready : ∀ zone : ZoneFiles, hash ∈ zone.metadata → hash ∈ zone.body →
      committed.Ready (zoneOutline env) (some (env.stripe hash)) zone)
    (hcommitted : committed.Follows (zoneOutline env) (some (env.stripe hash)))
    (hfailed : failed.Sound (zoneOutline env) (some (env.stripe hash))) :
    (commit_cache_entry_temp_body hash committed failed).Sound (zoneOutline env)
      (some (env.stripe hash)) := by
  refine Program.Sound.run (fun _ _ => trivial) fun outcome zone => ?_
  split
  · refine ⟨fun _ _ => trivial, ?_⟩
    intro world task outcome hholds hinv hneeds hallows
    have hleft := (zoneOutline env).keeps hholds hinv hneeds hallows
    dsimp only
    split
    · rename_i hok
      refine ⟨⟨rfl, ?_⟩, rename_metadata_follows hready hcommitted hfailed⟩
      simp [ZoneSection.effect, hok]
    · exact ⟨hfailed.ready _ hleft, hfailed.follows⟩
  · exact hfailed

theorem finalize_streaming_cache_sound (plan : StreamingCachePlan) (body_size_bytes : Nat) :
    (finalize_streaming_cache env plan body_size_bytes).Sound (zoneOutline env) none := by
  unfold finalize_streaming_cache
  split
  · unfold remember_hit_for_pass_from_plan
    split
    · exact Program.Sound.done
    · exact marker_store_sound rfl _ remove_all_if_unreferenced_sound
  · split
    · exact Program.Sound.done
    · apply Program.Sound.acquire
      apply commit_cache_entry_temp_body_sound
      · intro zone hmetadata hbody _
        exact ⟨rfl, hmetadata, hbody⟩
      · apply store_follows
        intro removed_hashes
        exact Program.Sound.release (remove_all_if_unreferenced_sound removed_hashes)
      · exact Program.Sound.release Program.Sound.done

theorem refresh_metadata_sound {hash key : String} {entry : CacheIndexEntry}
    (hhash : entry.hash = hash) (replaced_entry : Option (String × CacheIndexEntry)) :
    (refresh_metadata env hash key entry replaced_entry).Sound (zoneOutline env) none := by
  subst hhash
  refine Program.Sound.acquire ⟨fun _ _ => trivial, ?_⟩
  intro world task outcome hholds hinv hneeds hallows
  dsimp only
  split
  · rename_i hok
    refine ⟨?_, store_follows _ ?_⟩
    · intro _
      refine ⟨rfl, ?_, ?_⟩
      · simp [ZoneSection.effect, hok]
      · simpa [ZoneSection.effect, hok] using hallows hok
    · intro removed_hashes
      refine Program.Sound.run (fun _ _ => trivial) fun outcome zone => ?_
      apply Program.Sound.release
      split
      · exact remove_all_if_unreferenced_sound removed_hashes
      · exact Program.Sound.done
  · exact ⟨trivial, (Program.Sound.release Program.Sound.done).follows⟩

theorem drop_not_modified_sound (context : NotModified) (cached_entry : CacheIndexEntry)
    (removed_hashes : Finset String) :
    (drop_not_modified env context cached_entry removed_hashes).Sound (zoneOutline env) none := by
  unfold drop_not_modified
  split
  · refine Program.Sound.run (fun _ _ => trivial) fun outcome zone => ?_
    split
    · -- The io lock is not held here: the condition on the steps stands in for it.
      refine ⟨?_, removals_follow Program.Sound.done _ _⟩
      rintro zone - ⟨⟩
    · exact Program.Sound.done
  · exact remove_all_if_unreferenced_sound removed_hashes

theorem remember_hit_for_pass_sound (context : NotModified) {next : Finset String → ZoneTask}
    (h : ∀ hashes, (next hashes).Sound (zoneOutline env) none) :
    (remember_hit_for_pass env context next).Sound (zoneOutline env) none := by
  unfold remember_hit_for_pass
  split
  · exact h ∅
  · exact marker_store_sound rfl _ h

theorem refresh_not_modified_response_sound (context : NotModified) :
    (refresh_not_modified_response env context).Sound (zoneOutline env) none := by
  unfold refresh_not_modified_response
  split
  · rename_i cached_entry body_size_bytes hentry hsize
    dsimp only
    split
    · refine refresh_metadata_sound ?_ _
      rfl
    · split
      · apply Program.Sound.acquire
        refine Program.Sound.run (fun _ _ => trivial) fun outcome zone => ?_
        apply Program.Sound.release
        split
        · split
          · exact remember_hit_for_pass_sound context (drop_not_modified_sound context cached_entry)
          · exact drop_not_modified_sound context cached_entry ∅
        · exact Program.Sound.done
      · refine refresh_metadata_sound ?_ _
        rfl
  · exact Program.Sound.done

theorem ZoneOperation.task_sound (operation : ZoneOperation) :
    (operation.task env).Sound (zoneOutline env) none := by
  cases operation with
  | store plan body_size_bytes => exact finalize_streaming_cache_sound plan body_size_bytes
  | refresh context => exact refresh_not_modified_response_sound context
  | drop key expected_entry => exact remove_cache_entry_if_matches_sound key expected_entry
  | purge order selector =>
    exact Program.Sound.run (fun _ _ => trivial) fun _ _ => remove_all_if_unreferenced_sound _
  | cleanup now inactive_ms batch_size =>
    exact Program.Sound.run (fun _ _ => trivial) fun _ _ => remove_all_if_unreferenced_sound _
  | pass context => exact remember_hit_for_pass_sound context remove_all_if_unreferenced_sound

end Outlines

/-! ## Every run -/

/-- Every step of the run meets the condition. -/
def ZoneRunAllowed (env : FileEnv) (zone : ZoneFiles) (turns : List ZoneTurn) : Prop :=
  (World.start zone).AllowsAll (ZoneSection.effect env) (ZoneWorld.allows env)
    (turns.map (ZoneTurn.turn env))

/-- In a run whose steps meet the condition, a live entry has its files, also in the middle of
an operation. -/
theorem the_files_of_a_live_entry_stay (env : FileEnv) (zone : ZoneFiles)
    (hok : zone.index.Ok) (hfiles : zone.FilesPresent) (turns : List ZoneTurn)
    (hallowed : ZoneRunAllowed env zone turns) : (runZone env zone turns).state.FilesPresent := by
  have hstart : (World.start zone).Ok (zoneOutline env) := World.start_ok ⟨hok, hfiles⟩
  refine (hstart.run hallowed ?_).invariant.2
  intro task program hmem
  obtain ⟨turn, -, hturn⟩ := List.mem_map.mp hmem
  cases turn with
  | begin task' operation =>
    obtain ⟨rfl, rfl⟩ := Turn.spawn.inj hturn
    exact operation.task_sound
  | step task' outcome => cases hturn

def emptyZone : ZoneFiles := ⟨.default, ∅, ∅⟩

/-- A zone with one stripe and no bound. -/
def oneStripe : FileEnv := ⟨fun _ => 0, id, none⟩

/-- The store of ten bytes under the key `a`. -/
def tenBytePlan : StreamingCachePlan :=
  { base_key := "a"
    final_key := "a"
    vary := []
    tags := []
    freshness := ⟨100, none, none, false, false⟩
    now := 1
    hash := "a"
    max_entry_bytes := 100
    grace := none
    keep := none
    pass_ttl := none
    expected_body_bytes := some 10
    replaced_entry := none }

/-- Steps of one task that go well. -/
def goodSteps (task count : Nat) : List ZoneTurn := List.replicate count (.step task ⟨true, ∅⟩)

/-- A store of the entry from its begin to its end. -/
def wholeStore (task : Nat) : List ZoneTurn :=
  .begin task (.store tenBytePlan 10) :: goodSteps task 6

theorem a_store_leaves_its_files :
    (runZone oneStripe emptyZone (wholeStore 0)).state.index.Live "a" ∧
      "a" ∈ (runZone oneStripe emptyZone (wholeStore 0)).state.body := by
  have hlive : (runZone oneStripe emptyZone (wholeStore 0)).state.index.Live "a" :=
    ⟨"a", tenBytePlan.entry 10, by decide, rfl, rfl⟩
  have hallowed : ZoneRunAllowed oneStripe emptyZone (wholeStore 0) :=
    ⟨trivial, trivial, trivial, trivial, (fun hfails => nomatch hfails), trivial, trivial, trivial⟩
  have hempty : emptyZone.FilesPresent := by
    rintro hash ⟨key, entry, hentry, -⟩
    simp [emptyZone, CacheIndex.default] at hentry
  exact ⟨hlive, (the_files_of_a_live_entry_stay oneStripe emptyZone default_ok hempty
    (wholeStore 0) hallowed "a" hlive).2⟩

/-- A 304 for that entry whose headers forbid to keep it. -/
def notStorable : NotModified :=
  { key := "a"
    base_key := "a"
    cached_entry := some (tenBytePlan.entry 10)
    cached_body_size_bytes := some 10
    grace := none
    keep := none
    pass_ttl := none
    now := 2
    no_cache := false
    storable := false
    should_remember_hit_for_pass := false
    freshness := ⟨100, none, none, false, false⟩
    final_key := "a"
    vary := []
    tags := [] }

/-- A refresh that removes its entry, a store of the same hash, and then the files of the
refresh go. -/
def storeInsideRefresh : List ZoneTurn :=
  wholeStore 0 ++ .begin 1 (.refresh notStorable) :: goodSteps 1 4 ++ wholeStore 2 ++
    goodSteps 1 2

theorem remove_all_of_empty (env : FileEnv) : remove_all_if_unreferenced env ∅ = .done := by
  simp [remove_all_if_unreferenced, remove_each_if_unreferenced]

/-- The files go after the new entry has come: no task is in progress any more, and the entry
has no files. -/
theorem a_refresh_removes_the_files_of_a_new_entry :
    ¬ ∀ (env : FileEnv) (turns : List ZoneTurn),
      (runZone env emptyZone turns).Idle → (runZone env emptyZone turns).state.FilesPresent := by
  intro h
  have hlive : (runZone oneStripe emptyZone storeInsideRefresh).state.index.Live "a" :=
    ⟨"a", tenBytePlan.entry 10, by decide +kernel, rfl, rfl⟩
  have hgone : (runZone oneStripe emptyZone storeInsideRefresh).state.body = ∅ := by decide +kernel
  have hidle : (runZone oneStripe emptyZone storeInsideRefresh).Idle := by
    intro task
    match task with
    | 0 =>
      change remove_all_if_unreferenced oneStripe _ = _
      convert remove_all_of_empty oneStripe
      decide +kernel
    | 1 => rfl
    | 2 =>
      change remove_all_if_unreferenced oneStripe _ = _
      convert remove_all_of_empty oneStripe
      decide +kernel
    | n + 3 => rfl
  have hpresent := (h oneStripe storeInsideRefresh hidle "a" hlive).2
  rw [hgone] at hpresent
  exact Finset.notMem_empty "a" hpresent

end rginx.cache
