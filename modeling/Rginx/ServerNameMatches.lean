-- What a server name that matches a host looks like: the five shapes of a match, what two
-- names of the same priority have in common, and names in their lower case.
import Rginx.VirtualHosts

open rust_text rust_result

namespace rginx.config

/-! ## ASCII texts -/

def Ascii (s : Text) : Prop := ∀ c ∈ s, c.toNat < 128

theorem ascii_lowercase_iff (s : Text) : Ascii (to_ascii_lowercase s) ↔ Ascii s := by
  simp [Ascii, to_ascii_lowercase, toLower_lt_iff]

theorem ascii_cons {c : Char} {s : Text} : Ascii (c :: s) ↔ c.toNat < 128 ∧ Ascii s :=
  List.forall_mem_cons

theorem Ascii.mono {s t : Text} (h : Ascii t) (hsub : s ⊆ t) : Ascii s :=
  fun c hc => h c (hsub hc)

/-- The bytes of an ASCII text are as many as its characters. -/
theorem Ascii.length_as_bytes {s : Text} (h : Ascii s) : (as_bytes s).length = s.length := by
  rw [as_bytes_of_ascii h, List.length_map]

/-! ## The shapes of a match -/

def normalized_pattern (pattern : Text) : Text := to_ascii_lowercase (trim pattern)

/-- A normalized name matches a normalized host. -/
inductive MatchedBy (hostname : Text) : Text → ServerNameMatch → Prop
  | exact : MatchedBy hostname hostname .Exact
  | dot (suffix : Text) (h : suffix <:+ hostname) :
      MatchedBy hostname ('.' :: suffix) (.DotWildcard (as_bytes suffix).length)
  | leading (suffix : Text) (h : suffix <:+ hostname) :
      MatchedBy hostname ('*' :: '.' :: suffix) (.LeadingWildcard (as_bytes suffix).length)
  | trailing (start : Text) (h : start <+: hostname) :
      MatchedBy hostname (start ++ ['.', '*']) (.TrailingWildcard (as_bytes start).length)

theorem stripEnd_eq_some {ending s rest : Text} (h : stripEnd ending s = some rest) :
    s = rest ++ ending := by
  unfold stripEnd at h
  split_ifs at h with hending
  obtain ⟨rest', rfl⟩ := hending
  obtain rfl := Option.some.inj h
  rw [List.length_append, Nat.add_sub_cancel, List.take_left]

theorem matchedBy_of_match {pattern host : Text} {matched : ServerNameMatch}
    (h : match_server_name pattern host = some matched) :
    MatchedBy (normalize_host_for_match host) (normalized_pattern pattern) matched := by
  unfold match_server_name at h
  dsimp only at h
  rw [← normalized_pattern] at h
  split at h
  · cases h
  cases hdot : stripStart ['.'] (normalized_pattern pattern) with
  | some suffix =>
    rw [hdot] at h
    dsimp only at h
    split_ifs at h with hempty hmatch
    obtain rfl := Option.some.inj h
    rw [stripStart_eq_some hdot]
    refine .dot suffix ?_
    rcases hmatch with rfl | hmatch
    · exact List.suffix_rfl
    · exact (List.suffix_cons _ _).trans hmatch
  | none =>
    rw [hdot] at h
    cases hleading : stripStart ['*', '.'] (normalized_pattern pattern) with
    | some suffix =>
      rw [hleading] at h
      dsimp only at h
      split_ifs at h with hempty hmatch
      obtain rfl := Option.some.inj h
      rw [stripStart_eq_some hleading]
      exact .leading suffix ((List.suffix_cons _ _).trans hmatch)
    | none =>
      rw [hleading] at h
      cases htrailing : stripEnd ['.', '*'] (normalized_pattern pattern) with
      | some start =>
        rw [htrailing] at h
        dsimp only at h
        split at h
        · cases h
        cases hremainder : stripStart start (normalize_host_for_match host) with
        | none => rw [hremainder] at h; cases h
        | some remainder =>
          rw [hremainder] at h
          dsimp only at h
          split_ifs at h with hlong
          obtain rfl := Option.some.inj h
          rw [stripEnd_eq_some htrailing]
          exact .trailing start ⟨remainder, (stripStart_eq_some hremainder).symm⟩
      | none =>
        rw [htrailing] at h
        dsimp only at h
        split_ifs at h with hexact
        obtain rfl := Option.some.inj h
        rw [← hexact]
        exact .exact

theorem MatchedBy.ascii {hostname pattern : Text} {matched : ServerNameMatch}
    (h : MatchedBy hostname pattern matched) (hascii : Ascii hostname) : Ascii pattern := by
  cases h with
  | exact => exact hascii
  | dot suffix h => exact ascii_cons.mpr ⟨by decide, hascii.mono h.subset⟩
  | leading suffix h =>
    exact ascii_cons.mpr ⟨by decide, ascii_cons.mpr ⟨by decide, hascii.mono h.subset⟩⟩
  | trailing start h =>
    intro c hc
    rcases List.mem_append.mp hc with hc | hc
    · exact hascii c (h.subset hc)
    · have hmark : c = '.' ∨ c = '*' := by simpa using hc
      rcases hmark with rfl | rfl <;> decide

/-- Of two ends of a text, those of one length are the same. -/
theorem suffix_eq_of_length {hostname suffix suffix' : Text} (hascii : Ascii hostname)
    (h : suffix <:+ hostname) (h' : suffix' <:+ hostname)
    (hlength : (as_bytes suffix).length = (as_bytes suffix').length) : suffix = suffix' := by
  rw [(hascii.mono h.subset).length_as_bytes, (hascii.mono h'.subset).length_as_bytes] at hlength
  exact (List.suffix_of_suffix_length_le h h' hlength.le).eq_of_length hlength

theorem start_eq_of_length {hostname start start' : Text} (hascii : Ascii hostname)
    (h : start <+: hostname) (h' : start' <+: hostname)
    (hlength : (as_bytes start).length = (as_bytes start').length) : start = start' := by
  rw [(hascii.mono h.subset).length_as_bytes, (hascii.mono h'.subset).length_as_bytes] at hlength
  exact (List.prefix_of_prefix_length_le h h' hlength.le).eq_of_length hlength

/-- The two forms of a wildcard in front of one suffix. -/
inductive WildcardPair : Text → Text → Prop
  | dot_leading (suffix : Text) : WildcardPair ('.' :: suffix) ('*' :: '.' :: suffix)
  | leading_dot (suffix : Text) : WildcardPair ('*' :: '.' :: suffix) ('.' :: suffix)

/-- Two names that match a host with one priority are the same, but for the two wildcards. -/
theorem MatchedBy.same_priority {hostname pattern pattern' : Text}
    {matched matched' : ServerNameMatch} (hascii : Ascii hostname)
    (h : MatchedBy hostname pattern matched) (h' : MatchedBy hostname pattern' matched')
    (hpriority : matched.priority = matched'.priority) :
    pattern = pattern' ∨ WildcardPair pattern pattern' := by
  have hparts : (ofLex matched.priority).1 = (ofLex matched'.priority).1 ∧
      (ofLex matched.priority).2 = (ofLex matched'.priority).2 := by
    rw [hpriority]
    exact ⟨rfl, rfl⟩
  obtain ⟨hrank, hlength⟩ := hparts
  cases h with
  | exact =>
    cases h' with
    | exact => exact .inl rfl
    | dot | leading | trailing => cases hrank
  | dot suffix h =>
    cases h' with
    | dot suffix' h' => exact .inl (by rw [suffix_eq_of_length hascii h h' hlength])
    | leading suffix' h' =>
      rw [suffix_eq_of_length hascii h h' hlength]
      exact .inr (.dot_leading suffix')
    | exact | trailing => cases hrank
  | leading suffix h =>
    cases h' with
    | dot suffix' h' =>
      rw [suffix_eq_of_length hascii h h' hlength]
      exact .inr (.leading_dot suffix')
    | leading suffix' h' => exact .inl (by rw [suffix_eq_of_length hascii h h' hlength])
    | exact | trailing => cases hrank
  | trailing start h =>
    cases h' with
    | trailing start' h' => exact .inl (by rw [start_eq_of_length hascii h h' hlength])
    | exact | dot | leading => cases hrank

/-! ## Names in lower case -/

/-- What `str::to_lowercase` does to ASCII texts and to white space. -/
structure Lowercases (to_lowercase : String → String) : Prop where
  ascii : ∀ s : String, Ascii s.toList → (to_lowercase s).toList = to_ascii_lowercase s.toList
  trim : ∀ s : String,
    (to_lowercase (String.ofList (trim s.toList))).toList = trim (to_lowercase s).toList

theorem lowercases_ascii : Lowercases fun s => String.ofList (to_ascii_lowercase s.toList) := by
  refine ⟨fun s _ => by rw [String.toList_ofList], fun s => ?_⟩
  rw [String.toList_ofList, String.toList_ofList, String.toList_ofList, trim_to_ascii_lowercase]

theorem match_eq_of_normalized {pattern pattern' host host' : Text}
    (hpattern : normalized_pattern pattern = normalized_pattern pattern')
    (hhost : normalize_host_for_match host = normalize_host_for_match host') :
    match_server_name pattern host = match_server_name pattern' host' := by
  unfold match_server_name
  rw [← normalized_pattern, hpattern, hhost, ← normalized_pattern]

theorem ascii_normalize_host {host : Text} (h : Ascii host) :
    Ascii (normalize_host_for_match host) := by
  unfold normalize_host_for_match
  split
  · rename_i addr _ haddr
    obtain ⟨rest, hrest, hsplit⟩ := Option.bind_eq_some_iff.mp haddr
    rw [ascii_lowercase_iff]
    refine h.mono fun c hc => ?_
    rw [stripStart_eq_some hrest]
    exact List.mem_append_right _ ((split_once_some hsplit).subset hc)
  · rw [ascii_lowercase_iff]
    exact h.mono (List.takeWhile_prefix _).subset

/-- A host is normalized in lower case. -/
theorem normalize_host_lowercase (host : Text) :
    normalize_host_for_match (to_ascii_lowercase host) = normalize_host_for_match host := by
  have hcolon : (fun c : Char => decide (c ≠ ':')) ∘ Char.toLower = fun c => decide (c ≠ ':') := by
    funext c
    simp [toLower_eq_iff (c := c) (d := ':') (by decide)]
  have hport : to_ascii_lowercase ((to_ascii_lowercase host).takeWhile (· ≠ ':')) =
      to_ascii_lowercase (host.takeWhile (· ≠ ':')) := by
    unfold to_ascii_lowercase
    rw [List.takeWhile_map, hcolon, List.map_map]
    simp
  unfold normalize_host_for_match
  rw [stripStart_lowercase (by decide), hport]
  cases stripStart ['['] host with
  | none => rfl
  | some rest =>
    rw [Option.map_some, Option.bind_some, Option.bind_some, split_once_lowercase (by decide)]
    cases split_once ']' rest with
    | none => rfl
    | some parts => exact to_ascii_lowercase_idem parts.1

variable {to_lowercase : String → String}

/-- The normalized form of a name that matches an ASCII host is that of the name in lower case. -/
theorem Lowercases.normalized_eq (hlower : Lowercases to_lowercase) {name : String} {host : Text}
    (hhost : Ascii host) {matched : ServerNameMatch}
    (h : match_server_name name.toList host = some matched) :
    (to_lowercase (String.ofList (rust_text.trim name.toList))).toList =
      normalized_pattern name.toList := by
  have hascii : Ascii (rust_text.trim name.toList) :=
    (ascii_lowercase_iff _).mp ((matchedBy_of_match h).ascii (ascii_normalize_host hhost))
  rw [hlower.ascii _ (by rwa [String.toList_ofList]), String.toList_ofList]
  rfl

/-- A name that matches still matches, in the same way, in lower case. -/
theorem Lowercases.match_lowercase (hlower : Lowercases to_lowercase) {name : String} {host : Text}
    (hhost : Ascii host) {matched : ServerNameMatch}
    (h : match_server_name name.toList host = some matched) :
    match_server_name (to_lowercase name).toList host = some matched := by
  rw [← h]
  refine match_eq_of_normalized ?_ rfl
  rw [normalized_pattern, ← hlower.trim, hlower.normalized_eq hhost h, normalized_pattern,
    to_ascii_lowercase_idem]

/-! ## Names that are apart -/

def normalized_name (to_lowercase : String → String) (name : String) : Text :=
  (to_lowercase (String.ofList (rust_text.trim name.toList))).toList

theorem validate_server_names_ok {owner_label : String} {server_names : List String}
    {all_server_names all_server_names' : List Text}
    (h : validate_server_names to_lowercase owner_label server_names all_server_names =
      .ok all_server_names') (hnodup : all_server_names.Nodup) :
    all_server_names' =
        (server_names.map (normalized_name to_lowercase)).reverse ++ all_server_names ∧
      all_server_names'.Nodup := by
  induction server_names generalizing all_server_names with
  | nil =>
    obtain rfl := Except.ok.inj h
    exact ⟨rfl, hnodup⟩
  | cons name server_names ih =>
    unfold validate_server_names at h
    dsimp only at h
    rw [← normalized_name] at h
    split_ifs at h with _ _ _ _ hnew
    obtain ⟨hall, hapart⟩ := ih h (List.nodup_cons.mpr ⟨hnew, hnodup⟩)
    exact ⟨by simp [hall], hapart⟩

theorem validate_vhost_names_ok {idx : Nat} {vhosts : List VirtualHostConfig}
    {all_server_names all_server_names' : List Text}
    (h : validate_vhost_names to_lowercase idx vhosts all_server_names = .ok all_server_names')
    (hnodup : all_server_names.Nodup) :
    all_server_names' = ((vhosts.flatMap fun vhost => vhost.server_names).map
        (normalized_name to_lowercase)).reverse ++ all_server_names ∧
      all_server_names'.Nodup := by
  induction vhosts generalizing idx all_server_names with
  | nil =>
    obtain rfl := Except.ok.inj h
    exact ⟨rfl, hnodup⟩
  | cons vhost vhosts ih =>
    obtain ⟨middle, hmiddle, hrest⟩ := bind_eq_ok.mp h
    obtain ⟨hown, hown_apart⟩ := validate_server_names_ok hmiddle hnodup
    obtain ⟨hall, hapart⟩ := ih hrest hown_apart
    exact ⟨by simp [hall, hown], hapart⟩

/-- No two names of a configuration are the same, up to white space and the case of letters. -/
theorem names_apart {config : Config}
    (h : validate_all_server_names to_lowercase config = .ok ()) :
    ((config.server.server_names ++ config.servers.flatMap fun vhost => vhost.server_names).map
      (normalized_name to_lowercase)).Nodup := by
  obtain ⟨middle, hmiddle, hrest⟩ := bind_eq_ok.mp h
  obtain ⟨last, hlast, _⟩ := bind_eq_ok.mp hrest
  obtain ⟨hown, hown_apart⟩ := validate_server_names_ok hmiddle List.nodup_nil
  obtain ⟨hall, hapart⟩ := validate_vhost_names_ok hlast hown_apart
  rw [hall, hown, List.append_nil, ← List.reverse_append, List.nodup_reverse, ← List.map_append]
    at hapart
  exact hapart

end rginx.config
