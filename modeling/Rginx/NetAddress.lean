-- Addresses as `std::net` reads and writes them, and the networks of the
-- `ipnet` crate. A reader takes the characters that it can use from the front
-- of a text, and leaves the others.
import Rginx.RustText

open rust_text

namespace rust_net

/-! ## Addresses -/

inductive IpAddr
  | V4 (bits : BitVec 32)
  | V6 (bits : BitVec 128)
  deriving DecidableEq

structure SocketAddr where
  ip : IpAddr
  port : Nat
  deriving DecidableEq

/-- The address of four octets, or of eight groups: digits from the left. -/
def fromGroups (size : Nat) (groups : List Nat) (w : Nat) : BitVec w :=
  BitVec.ofNat w (groups.foldl (fun bits group => bits * size + group) 0)

/-- The octets or the groups of an address, from the left. -/
def toGroups (size : Nat) : (count : Nat) → Nat → List Nat
  | 0, _ => []
  | count + 1, bits => toGroups size count (bits / size) ++ [bits % size]

/-! ## Networks -/

/-- `ipnet::IpNet`: the addresses that agree with it in the first bits. -/
inductive IpNet
  | V4 (addr : BitVec 32) (prefix_len : Fin 33)
  | V6 (addr : BitVec 128) (prefix_len : Fin 129)
  deriving DecidableEq

def IpNet.contains : IpNet → IpAddr → Bool
  | .V4 addr prefix_len, .V4 bits =>
    addr >>> (32 - prefix_len.val) = bits >>> (32 - prefix_len.val)
  | .V6 addr prefix_len, .V6 bits =>
    addr >>> (128 - prefix_len.val) = bits >>> (128 - prefix_len.val)
  | _, _ => false

/-! ## Reading -/

/-- `char::to_digit`. -/
def to_digit (radix : Nat) (c : Char) : Option Nat :=
  let digit :=
    if '0' ≤ c ∧ c ≤ '9' then some (c.toNat - '0'.toNat)
    else if 'a' ≤ c ∧ c ≤ 'z' then some (c.toNat - 'a'.toNat + 10)
    else if 'A' ≤ c ∧ c ≤ 'Z' then some (c.toNat - 'A'.toNat + 10)
    else none
  digit.filter (· < radix)

/-- `Parser::read_number`, for a type of `bound` values. All the digits are read, and there may
be only so many of them. -/
def read_number (radix : Nat) (max_digits : Option Nat) ( allow_zero_prefix : Bool) (bound : Nat)
    (s : Text) : Option (Nat × Text) :=
  let digits := s.takeWhile fun c => (to_digit radix c).isSome
  let value := (digits.filterMap (to_digit radix)).foldl (fun n digit => n * radix + digit) 0
  if digits = [] ∨ max_digits.any (· < digits.length) then none
  else if ! allow_zero_prefix && s.head? = some '0' && 1 < digits.length then none
  else if value < bound then some (value, s.drop digits.length)
  else none

/-- `Parser::read_given_char`. -/
def read_given_char (c : Char) : Text → Option Text
  | d :: s => if d = c then some s else none
  | [] => none

/-- `Parser::read_separator`: the separator stands before every part but the first. -/
def read_separator {α : Type} (c : Char) (first : Bool) (inner : Text → Option (α × Text))
    (s : Text) : Option (α × Text) :=
  if first then inner s else (read_given_char c s).bind inner

/-- An octet; a leading zero would mean an octal number. -/
def read_octet (first : Bool) : Text → Option (Nat × Text) :=
  read_separator '.' first (read_number 10 (some 3) false 256)

def read_ipv4_addr (s : Text) : Option (List Nat × Text) := do
  let (one, s) ← read_octet true s
  let (two, s) ← read_octet false s
  let (three, s) ← read_octet false s
  let (four, s) ← read_octet false s
  return ([one, two, three, four], s)

/-- The groups of an IPv6 address up to the first that is missing, of which two may be written
as an IPv4 address at the end. The first argument is how many may still come. -/
def read_groups : Nat → Bool → Text → List Nat × Bool × Text
  | 0, _, s => ([], false, s)
  | left + 1, first, s =>
    match if 0 < left then read_separator ':' first read_ipv4_addr s else none with
    | some ([one, two, three, four], s) => ([one * 256 + two, three * 256 + four], true, s)
    | _ =>
      match read_separator ':' first (read_number 16 (some 4) true 65536) s with
      | none => ([], false, s)
      | some (group, s) =>
        let (groups, ipv4, s) := read_groups left false s
        (group :: groups, ipv4, s)

/-- The head up to `::` and the tail after it, with at least one group of zeros between them. -/
def read_ipv6_addr (s : Text) : Option (List Nat × Text) :=
  let (head, head_ipv4, s) := read_groups 8 true s
  if head.length = 8 then some (head, s)
  else if head_ipv4 then none
  else do
    let s ← read_given_char ':' s
    let s ← read_given_char ':' s
    let (tail, _, s) := read_groups (7 - head.length) true s
    return (head ++ List.replicate (8 - head.length - tail.length) 0 ++ tail, s)

def read_ip_addr (s : Text) : Option (IpAddr × Text) :=
  match read_ipv4_addr s with
  | some (octets, s) => some (.V4 (fromGroups 256 octets 32), s)
  | none => (read_ipv6_addr s).map fun (groups, s) => (.V6 (fromGroups 65536 groups 128), s)

def read_port (s : Text) : Option (Nat × Text) :=
  (read_given_char ':' s).bind (read_number 10 none true 65536)

def read_socket_addr_v4 (s : Text) : Option (SocketAddr × Text) := do
  let (octets, s) ← read_ipv4_addr s
  let (port, s) ← read_port s
  return (⟨.V4 (fromGroups 256 octets 32), port⟩, s)

/-- A scope may follow the address; it is not kept here. -/
def read_socket_addr_v6 (s : Text) : Option (SocketAddr × Text) := do
  let s ← read_given_char '[' s
  let (groups, s) ← read_ipv6_addr s
  let s := match (read_given_char '%' s).bind (read_number 10 none true (2 ^ 32)) with
    | some (_, rest) => rest
    | none => s
  let s ← read_given_char ']' s
  let (port, s) ← read_port s
  return (⟨.V6 (fromGroups 65536 groups 128), port⟩, s)

def read_socket_addr (s : Text) : Option (SocketAddr × Text) :=
  match read_socket_addr_v4 s with
  | some result => some result
  | none => read_socket_addr_v6 s

/-- `Parser::parse_with`: nothing may be left. -/
def parse_with {α : Type} (read : Text → Option (α × Text)) (s : Text) : Option α :=
  match read s with
  | some (a, []) => some a
  | _ => none

/-- `str::parse::<IpAddr>`. -/
def IpAddr.parse (s : Text) : Option IpAddr := parse_with read_ip_addr s

/-- `str::parse::<SocketAddr>`. -/
def SocketAddr.parse (s : Text) : Option SocketAddr := parse_with read_socket_addr s

/-! ## What an address is written in -/

/-- The characters of addresses. -/
def AddrChar (c : Char) : Prop := (to_digit 16 c).isSome ∨ c = ':' ∨ c = '.'

/-- What is read off the front of a text is made of the characters of addresses. -/
def ReadsAddr {α : Type} (read : Text → Option (α × Text)) : Prop :=
  ∀ s a rest, read s = some (a, rest) → ∃ used, s = used ++ rest ∧ ∀ c ∈ used, AddrChar c

theorem to_digit_mono {c : Char} (h : (to_digit 10 c).isSome) : (to_digit 16 c).isSome := by
  obtain ⟨digit, hdigit⟩ := Option.isSome_iff_exists.mp h
  unfold to_digit at hdigit ⊢
  rw [Option.filter_eq_some_iff] at hdigit
  rw [hdigit.1]
  have hlt : digit < 10 := of_decide_eq_true hdigit.2
  have hlow : digit < 16 := by omega
  rw [Option.filter_some, if_pos (decide_eq_true hlow)]
  rfl

theorem reads_number {radix bound : Nat} {max_digits : Option Nat} {allow_zero : Bool}
    (hradix : radix = 10 ∨ radix = 16) :
    ReadsAddr (read_number radix max_digits allow_zero bound) := by
  intro s a rest h
  unfold read_number at h
  dsimp only at h
  split at h
  · cases h
  · split at h
    · cases h
    · split at h
      · rw [Option.some.injEq, Prod.mk.injEq] at h
        refine ⟨s.takeWhile fun c => (to_digit radix c).isSome, ?_, fun c hc => ?_⟩
        · rw [← h.2]
          exact (List.prefix_iff_eq_append.mp (List.takeWhile_prefix _)).symm
        · have hdigit := List.mem_takeWhile_imp hc
          rcases hradix with rfl | rfl
          · exact .inl (to_digit_mono hdigit)
          · exact .inl hdigit
      · cases h

theorem read_given_char_eq_some {c : Char} {s rest : Text} :
    read_given_char c s = some rest ↔ s = c :: rest := by
  cases s with
  | nil => simp [read_given_char]
  | cons d s =>
    unfold read_given_char
    by_cases hsame : d = c <;> simp [hsame]

theorem reads_separator {α : Type} {c : Char} {first : Bool} {inner : Text → Option (α × Text)}
    (hc : AddrChar c) (h : ReadsAddr inner) : ReadsAddr (read_separator c first inner) := by
  intro s a rest hread
  unfold read_separator at hread
  split at hread
  · exact h s a rest hread
  · obtain ⟨more, hgiven, hinner⟩ := Option.bind_eq_some_iff.mp hread
    obtain ⟨used, rfl, hused⟩ := h more a rest hinner
    rw [read_given_char_eq_some.mp hgiven]
    refine ⟨c :: used, rfl, fun d hd => ?_⟩
    rcases List.mem_cons.mp hd with rfl | hd
    · exact hc
    · exact hused d hd

/-- One read after another. -/
theorem reads_then {s more rest first : Text} (hfirst : s = first ++ more)
    (hall : ∀ c ∈ first, AddrChar c)
    (hmore : ∃ used, more = used ++ rest ∧ ∀ c ∈ used, AddrChar c) :
    ∃ used, s = used ++ rest ∧ ∀ c ∈ used, AddrChar c := by
  obtain ⟨used, rfl, hused⟩ := hmore
  refine ⟨first ++ used, by rw [hfirst, List.append_assoc], fun c hc => ?_⟩
  exact (List.mem_append.mp hc).elim (hall c) (hused c)

theorem reads_octet (first : Bool) : ReadsAddr (read_octet first) :=
  reads_separator (.inr (.inr rfl)) (reads_number (.inl rfl))

theorem reads_ipv4_addr : ReadsAddr read_ipv4_addr := by
  intro s octets rest h
  unfold read_ipv4_addr at h
  simp only [Option.bind_eq_bind, Option.bind_eq_some_iff, Option.pure_def, Option.some.injEq,
    Prod.mk.injEq, Prod.exists] at h
  obtain ⟨one, s1, h1, two, s2, h2, three, s3, h3, four, s4, h4, -, rfl⟩ := h
  obtain ⟨used1, hs1, hall1⟩ := reads_octet true _ _ _ h1
  obtain ⟨used2, hs2, hall2⟩ := reads_octet false _ _ _ h2
  obtain ⟨used3, hs3, hall3⟩ := reads_octet false _ _ _ h3
  exact reads_then hs1 hall1 (reads_then hs2 hall2 (reads_then hs3 hall3
    (reads_octet false _ _ _ h4)))

theorem reads_groups (left : Nat) (first : Bool) (s : Text) :
    ∃ used, s = used ++ (read_groups left first s).2.2 ∧ ∀ c ∈ used, AddrChar c := by
  induction left generalizing first s with
  | zero => exact ⟨[], rfl, fun c hc => nomatch hc⟩
  | succ left ih =>
    unfold read_groups
    split
    · rename_i heq
      split at heq
      · exact reads_separator (.inr (.inl rfl)) reads_ipv4_addr _ _ _ heq
      · cases heq
    · dsimp only
      split
      · exact ⟨[], rfl, fun c hc => nomatch hc⟩
      · rename_i group more hgroup
        obtain ⟨used, hused, hall⟩ :=
          reads_separator (.inr (.inl rfl)) (reads_number (.inr rfl)) _ _ _ hgroup
        exact reads_then hused hall (ih false more)

theorem reads_given_colon {s rest : Text} (h : read_given_char ':' s = some rest) :
    s = [':'] ++ rest ∧ ∀ c ∈ [':'], AddrChar c := by
  exact ⟨read_given_char_eq_some.mp h, fun c hc => .inr (.inl (List.mem_singleton.mp hc))⟩

theorem reads_ipv6_addr : ReadsAddr read_ipv6_addr := by
  intro s groups rest h
  obtain ⟨used, hused, hall⟩ := reads_groups 8 true s
  unfold read_ipv6_addr at h
  dsimp only at h
  split at h
  · rw [Option.some.injEq, Prod.mk.injEq] at h
    exact ⟨used, h.2 ▸ hused, hall⟩
  · split at h
    · cases h
    · simp only [Option.bind_eq_bind, Option.bind_eq_some_iff, Option.pure_def, Option.some.injEq,
        Prod.mk.injEq] at h
      obtain ⟨s1, h1, s2, h2, -, rfl⟩ := h
      have hfirst := reads_given_colon h1
      have hsecond := reads_given_colon h2
      exact reads_then hused hall (reads_then hfirst.1 hfirst.2 (reads_then hsecond.1 hsecond.2
        (reads_groups _ true s2)))

/-- An address is made of digits, colons and dots. -/
theorem addr_char_of_parse {s : Text} {ip : IpAddr} (h : IpAddr.parse s = some ip) :
    ∀ c ∈ s, AddrChar c := by
  have hreads : ∃ used, s = used ++ [] ∧ ∀ c ∈ used, AddrChar c := by
    unfold IpAddr.parse parse_with at h
    split at h
    · rename_i found hread
      unfold read_ip_addr at hread
      split at hread
      · rename_i octets rest hv4
        rw [Option.some.injEq, Prod.mk.injEq] at hread
        exact reads_ipv4_addr _ _ _ (hread.2 ▸ hv4)
      · obtain ⟨⟨groups, rest⟩, hv6, hfound⟩ := Option.map_eq_some_iff.mp hread
        rw [Prod.mk.injEq] at hfound
        exact reads_ipv6_addr _ _ _ (hfound.2 ▸ hv6)
    · cases h
  obtain ⟨used, hs, hused⟩ := hreads
  rw [List.append_nil] at hs
  rw [hs]
  exact hused

/-! ## Writing -/

def joined (separator : Text) (parts : List Text) : Text := (parts.intersperse separator).flatten

/-- The digits of `\x7b:x\x7d`. -/
def hex (n : Nat) : Text := Nat.toDigits 16 n

/-- The longest run of zeros, the first of its length: where it starts, and how long it is. -/
def longest_zeros (groups : List Nat) : Nat × Nat :=
  let spans := groups.zipIdx.map fun (_, i) => (i, ((groups.drop i).takeWhile (· = 0)).length)
  spans.foldl (fun longest span => if longest.2 < span.2 then span else longest) (0, 0)

/-- `IpAddr::to_string`. -/
def IpAddr.to_string : IpAddr → Text
  | .V4 bits => joined ['.'] ((toGroups 256 4 bits.toNat).map decimal)
  | .V6 bits =>
    let groups := toGroups 65536 8 bits.toNat
    if groups.take 6 = [0, 0, 0, 0, 0, 65535] then
      "::ffff:".toList ++ joined ['.'] ((toGroups 256 4 (bits.toNat % 2 ^ 32)).map decimal)
    else
      let (start, len) := longest_zeros groups
      if 1 < len then
        joined [':'] ((groups.take start).map hex) ++ [':', ':'] ++
          joined [':'] ((groups.drop (start + len)).map hex)
      else joined [':'] (groups.map hex)

/-- `SocketAddr::to_string`; addresses have no scope here. -/
def SocketAddr.to_string (addr : SocketAddr) : Text :=
  let host := match addr.ip with
    | .V4 _ => addr.ip.to_string
    | .V6 _ => '[' :: addr.ip.to_string ++ [']']
  host ++ ':' :: decimal addr.port

/-! ## What is written -/

theorem joined_cons_cons (c : Char) (part next : Text) (parts : List Text) :
    joined [c] (part :: next :: parts) = part ++ c :: joined [c] (next :: parts) := by
  simp [joined, List.intersperse]

theorem joined_append {c : Char} {parts parts' : List Text} (hne : parts ≠ [])
    (hne' : parts' ≠ []) :
    joined [c] (parts ++ parts') = joined [c] parts ++ c :: joined [c] parts' := by
  induction parts with
  | nil => exact absurd rfl hne
  | cons part rest ih =>
    cases rest with
    | nil =>
      obtain ⟨next, parts', rfl⟩ := List.exists_cons_of_ne_nil hne'
      simp [joined]
    | cons next rest =>
      have hrest := ih (List.cons_ne_nil next rest)
      rw [List.cons_append, List.cons_append, joined_cons_cons, ← List.cons_append, hrest,
        joined_cons_cons, List.append_assoc, List.cons_append]

/-- A joined text is cut into its parts again. -/
theorem split_joined {c : Char} {parts : List Text} (hparts : ∀ part ∈ parts, c ∉ part)
    (hne : parts ≠ []) : split c (joined [c] parts) = parts :=
  List.splitOn_intercalate c hparts hne

theorem joined_injective {c : Char} {parts parts' : List Text}
    (hparts : ∀ part ∈ parts, c ∉ part) (hparts' : ∀ part ∈ parts', c ∉ part)
    (hne : parts ≠ []) (hne' : parts' ≠ []) (h : joined [c] parts = joined [c] parts') :
    parts = parts' := by
  rw [← split_joined hparts hne, h, split_joined hparts' hne']

theorem mem_joined {c d : Char} {parts : List Text} (h : d ∈ joined [c] parts) :
    d = c ∨ ∃ part ∈ parts, d ∈ part := by
  induction parts with
  | nil => simp [joined] at h
  | cons part rest ih =>
    cases rest with
    | nil => exact .inr ⟨part, List.mem_singleton_self _, by simpa [joined] using h⟩
    | cons next rest =>
      rw [joined_cons_cons] at h
      rcases List.mem_append.mp h with hpart | hrest
      · exact .inr ⟨part, List.mem_cons_self, hpart⟩
      · rcases List.mem_cons.mp hrest with rfl | hrest
        · exact .inl rfl
        · rcases ih hrest with rfl | ⟨other, hother, hmem⟩
          · exact .inl rfl
          · exact .inr ⟨other, List.mem_cons_of_mem _ hother, hmem⟩

theorem length_toGroups (size count bits : Nat) : (toGroups size count bits).length = count := by
  induction count generalizing bits with
  | zero => rfl
  | succ count ih => simp [toGroups, ih]

theorem toGroups_injective {size count bits bits' : Nat} (hbits : bits < size ^ count)
    (hbits' : bits' < size ^ count) (h : toGroups size count bits = toGroups size count bits') :
    bits = bits' := by
  induction count generalizing bits bits' with
  | zero =>
    rw [Nat.pow_zero] at hbits hbits'
    omega
  | succ count ih =>
    obtain ⟨hrest, hlast⟩ := List.append_inj' h rfl
    rw [Nat.pow_succ'] at hbits hbits'
    have hdiv := ih (Nat.div_lt_of_lt_mul hbits) (Nat.div_lt_of_lt_mul hbits') hrest
    have hmod : bits % size = bits' % size := List.singleton_injective hlast
    rw [← Nat.div_add_mod bits size, hdiv, hmod, Nat.div_add_mod]

theorem digitChar_injective : ∀ m < 16, ∀ n < 16, m.digitChar = n.digitChar → m = n := by
  decide

theorem hex_ne_nil (n : Nat) : hex n ≠ [] := Nat.toDigits_ne_nil

theorem hex_injective : Function.Injective hex := by
  intro m
  induction m using Nat.strongRecOn with
  | ind m ih =>
    intro n h
    unfold hex at h
    rw [Nat.toDigits_eq_if (by decide), Nat.toDigits_eq_if (n := n) (by decide)] at h
    split at h
    · rename_i hm
      split at h
      · rename_i hn
        exact digitChar_injective m hm n hn (List.singleton_injective h)
      · exact absurd (congrArg List.length h) (by simp)
    · rename_i hm
      split at h
      · exact absurd (congrArg List.length h) (by simp)
      · obtain ⟨hrest, hlast⟩ := List.append_inj' h rfl
        have hdiv := ih (m / 16) (by omega) hrest
        have hmod := digitChar_injective (m % 16) (by omega) (n % 16) (by omega)
          (List.singleton_injective hlast)
        omega

theorem mem_hex {n : Nat} {c : Char} (h : c ∈ hex n) : ∃ d < 16, c = d.digitChar := by
  induction n using Nat.strongRecOn with
  | ind n ih =>
    unfold hex at h
    rw [Nat.toDigits_eq_if (by decide)] at h
    split at h
    · rename_i hn
      exact ⟨n, hn, List.mem_singleton.mp h⟩
    · rcases List.mem_append.mp h with hrest | hlast
      · exact ih (n / 16) (by omega) hrest
      · exact ⟨n % 16, by omega, List.mem_singleton.mp hlast⟩

theorem colon_notMem_hex (n : Nat) : ':' ∉ hex n := by
  intro h
  obtain ⟨d, hd, hc⟩ := mem_hex h
  revert hc
  revert d
  decide

theorem dot_notMem_hex (n : Nat) : '.' ∉ hex n := by
  intro h
  obtain ⟨d, hd, hc⟩ := mem_hex h
  revert hc
  revert d
  decide

theorem foldl_longest_mem (longest : Nat × Nat) (spans : List (Nat × Nat)) :
    spans.foldl (fun longest span => if longest.2 < span.2 then span else longest) longest ∈
      longest :: spans := by
  induction spans generalizing longest with
  | nil => exact List.mem_singleton_self _
  | cons span spans ih =>
    rw [List.foldl_cons]
    rcases List.mem_cons.mp (ih (if longest.2 < span.2 then span else longest)) with h | h
    · rw [h]
      split
      · exact List.mem_cons_of_mem _ List.mem_cons_self
      · exact List.mem_cons_self
    · exact List.mem_cons_of_mem _ (List.mem_cons_of_mem _ h)

/-- The longest run of zeros is one. -/
theorem longest_zeros_spec (groups : List Nat) :
    groups.take (longest_zeros groups).1 ++ List.replicate (longest_zeros groups).2 0 ++
      groups.drop ((longest_zeros groups).1 + (longest_zeros groups).2) = groups := by
  rcases List.mem_cons.mp (foldl_longest_mem (0, 0) (groups.zipIdx.map fun (_, i) =>
    (i, ((groups.drop i).takeWhile (· = 0)).length))) with h | h
  · unfold longest_zeros
    rw [h]
    simp
  · obtain ⟨⟨_, i⟩, -, hspan⟩ := List.mem_map.mp h
    unfold longest_zeros
    rw [← hspan]
    have hzeros : List.replicate ((groups.drop i).takeWhile (· = 0)).length 0 =
        (groups.drop i).takeWhile (· = 0) := by
      refine (List.eq_replicate_of_mem ?_).symm
      intro group hgroup
      simpa using List.mem_takeWhile_imp hgroup
    have hrest : groups.drop (i + ((groups.drop i).takeWhile (· = 0)).length) =
        (groups.drop i).dropWhile (· = 0) := by
      have hdrop : ((groups.drop i).takeWhile (· = 0) ++ (groups.drop i).dropWhile (· = 0)).drop
          ((groups.drop i).takeWhile (· = 0)).length = (groups.drop i).dropWhile (· = 0) :=
        List.drop_left
      rwa [List.takeWhile_append_dropWhile, List.drop_drop] at hdrop
    dsimp only
    rw [hzeros, hrest, List.append_assoc, List.takeWhile_append_dropWhile, List.take_append_drop]

/-- The parts of a side of `::`, which may have none. -/
def side (parts : List Text) : List Text := if parts = [] then [[]] else parts

theorem side_ne_nil (parts : List Text) : side parts ≠ [] := by
  unfold side
  split
  · exact List.cons_ne_nil _ _
  · assumption

theorem side_inj {parts parts' : List Text} (hparts : [] ∉ parts) (hparts' : [] ∉ parts')
    (h : side parts = side parts') : parts = parts' := by
  unfold side at h
  split at h
  · rename_i hnil
    split at h
    · rename_i hnil'
      rw [hnil, hnil']
    · exact absurd (h ▸ List.mem_singleton_self _) hparts'
  · split at h
    · exact absurd (h ▸ List.mem_singleton_self _) hparts
    · exact h

theorem joined_sides (c : Char) (parts parts' : List Text) :
    joined [c] parts ++ [c, c] ++ joined [c] parts' =
      joined [c] (side parts ++ [] :: side parts') := by
  have hside : ∀ parts : List Text,
      side parts ≠ [] ∧ joined [c] (side parts) = joined [c] parts := by
    intro parts
    refine ⟨side_ne_nil parts, ?_⟩
    unfold side
    split
    · rename_i hnil
      rw [hnil]
      rfl
    · rfl
  obtain ⟨hne, hsame⟩ := hside parts
  obtain ⟨hne', hsame'⟩ := hside parts'
  have hright : joined [c] ([] :: side parts') = c :: joined [c] parts' := by
    have happend := joined_append (c := c) (List.cons_ne_nil ([] : Text) []) hne'
    rw [hsame'] at happend
    exact happend
  rw [joined_append hne (List.cons_ne_nil _ _), hsame, hright]
  simp

theorem sides_inj {left left' right right' : List Text} (hleft : [] ∉ left) (hleft' : [] ∉ left')
    (hright : [] ∉ right) (hright' : [] ∉ right')
    (h : side left ++ [] :: side right = side left' ++ [] :: side right') :
    left = left' ∧ right = right' := by
  have hbefore : ∀ {left left' : List Text} {tail tail' : List Text}, [] ∉ left → [] ∉ left' →
      left ≠ [] → side left ++ [] :: tail = side left' ++ [] :: tail' →
        left = left' ∧ tail = tail' := by
    intro left left' tail tail' hleft hleft' hne h
    have hne' : left' ≠ [] := by
      rintro rfl
      rw [side, if_neg hne, side, if_pos rfl] at h
      obtain ⟨part, rest, rfl⟩ := List.exists_cons_of_ne_nil hne
      obtain ⟨rfl, -⟩ := List.cons.inj h
      exact hleft List.mem_cons_self
    rw [side, if_neg hne, side, if_neg hne'] at h
    rcases List.append_eq_append_iff.mp h with ⟨d, rfl, hd⟩ | ⟨d, rfl, hd⟩
    · rcases d with _ | ⟨e, d⟩
      · exact ⟨(List.append_nil _).symm, (List.cons.inj hd).2⟩
      · obtain ⟨rfl, -⟩ := List.cons.inj hd
        exact absurd (List.mem_append_right _ List.mem_cons_self) hleft'
    · rcases d with _ | ⟨e, d⟩
      · exact ⟨List.append_nil _, (List.cons.inj hd).2.symm⟩
      · obtain ⟨rfl, -⟩ := List.cons.inj hd
        exact absurd (List.mem_append_right _ List.mem_cons_self) hleft
  by_cases hne : left = []
  · by_cases hne' : left' = []
    · subst hne hne'
      exact ⟨rfl, side_inj hright hright' (List.cons.inj (List.append_cancel_left h)).2⟩
    · obtain ⟨hsame, -⟩ := hbefore hleft' hleft hne' h.symm
      exact absurd (hsame.trans hne) hne'
  · obtain ⟨hsame, htail⟩ := hbefore hleft hleft' hne h
    exact ⟨hsame, side_inj hright hright' htail⟩

/-- The parts between the colons of an address of eight groups. -/
def v6_parts (groups : List Nat) : List Text :=
  let (start, len) := longest_zeros groups
  if 1 < len then
    side ((groups.take start).map hex) ++ [] :: side ((groups.drop (start + len)).map hex)
  else groups.map hex

theorem nil_notMem_map_hex (groups : List Nat) : [] ∉ groups.map hex := by
  intro h
  obtain ⟨n, -, hn⟩ := List.mem_map.mp h
  exact hex_ne_nil n hn

theorem mem_side {parts : List Text} {part : Text} (h : part ∈ side parts) :
    part = [] ∨ part ∈ parts := by
  unfold side at h
  split at h
  · exact .inl (List.mem_singleton.mp h)
  · exact .inr h

theorem mem_v6_parts {groups : List Nat} {part : Text} (h : part ∈ v6_parts groups) :
    part = [] ∨ ∃ n, part = hex n := by
  have hhex : ∀ {groups : List Nat}, part ∈ groups.map hex → ∃ n, part = hex n := by
    intro groups hmem
    obtain ⟨n, -, hn⟩ := List.mem_map.mp hmem
    exact ⟨n, hn.symm⟩
  unfold v6_parts at h
  dsimp only at h
  split at h
  · rcases List.mem_append.mp h with hleft | hright
    · exact (mem_side hleft).imp id hhex
    · rcases List.mem_cons.mp hright with hnil | hright
      · exact .inl hnil
      · exact (mem_side hright).imp id hhex
  · exact .inr (hhex h)

theorem v6_parts_injective {groups groups' : List Nat} (hlength : groups.length = groups'.length)
    (h : v6_parts groups = v6_parts groups') : groups = groups' := by
  unfold v6_parts at h
  dsimp only at h
  split at h
  · split at h
    · obtain ⟨hleft, hright⟩ := sides_inj (nil_notMem_map_hex _) (nil_notMem_map_hex _)
        (nil_notMem_map_hex _) (nil_notMem_map_hex _) h
      have hleft := (List.map_injective_iff.mpr hex_injective) hleft
      have hright := (List.map_injective_iff.mpr hex_injective) hright
      have hspec := longest_zeros_spec groups
      have hspec' := longest_zeros_spec groups'
      have hsum := congrArg List.length hspec
      have hsum' := congrArg List.length hspec'
      rw [hleft, hright] at hspec hsum
      simp only [List.length_append, List.length_replicate] at hsum hsum'
      have hlen : (longest_zeros groups).2 = (longest_zeros groups').2 := by omega
      rw [hlen] at hspec
      exact hspec.symm.trans hspec'
    · have hnil : [] ∈ groups'.map hex := h ▸ List.mem_append_right _ List.mem_cons_self
      exact absurd hnil (nil_notMem_map_hex _)
  · split at h
    · have hnil : [] ∈ groups.map hex := h ▸ List.mem_append_right _ List.mem_cons_self
      exact absurd hnil (nil_notMem_map_hex _)
    · exact (List.map_injective_iff.mpr hex_injective) h

theorem two_le_length_v6_parts {groups : List Nat} (h : 2 ≤ groups.length) :
    2 ≤ (v6_parts groups).length := by
  unfold v6_parts
  dsimp only
  split
  · have hleft := List.length_pos_iff.mpr
      (side_ne_nil ((groups.take (longest_zeros groups).1).map hex))
    rw [List.length_append, List.length_cons]
    omega
  · rwa [List.length_map]

/-- The eight groups of an address that is not a mapped one. -/
theorem to_string_v6 {bits : BitVec 128}
    (h : (toGroups 65536 8 bits.toNat).take 6 ≠ [0, 0, 0, 0, 0, 65535]) :
    IpAddr.to_string (.V6 bits) = joined [':'] (v6_parts (toGroups 65536 8 bits.toNat)) := by
  unfold IpAddr.to_string v6_parts
  dsimp only
  rw [if_neg h]
  split
  · exact joined_sides _ _ _
  · rfl

theorem to_string_mapped {bits : BitVec 128}
    (h : (toGroups 65536 8 bits.toNat).take 6 = [0, 0, 0, 0, 0, 65535]) :
    IpAddr.to_string (.V6 bits) = "::ffff:".toList ++ joined ['.']
      ((toGroups 256 4 (bits.toNat % 2 ^ 32)).map decimal) := by
  unfold IpAddr.to_string
  dsimp only
  rw [if_pos h]

theorem dotted_injective {bits bits' : Nat} (hbits : bits < 2 ^ 32) (hbits' : bits' < 2 ^ 32)
    (h : joined ['.'] ((toGroups 256 4 bits).map decimal) =
      joined ['.'] ((toGroups 256 4 bits').map decimal)) : bits = bits' := by
  have hdot : ∀ bits, ∀ part ∈ (toGroups 256 4 bits).map decimal, '.' ∉ part := by
    intro bits part hpart
    obtain ⟨n, -, rfl⟩ := List.mem_map.mp hpart
    exact notMem_decimal rfl n
  have hne : ∀ bits, (toGroups 256 4 bits).map decimal ≠ [] := by
    intro bits hnil
    have hlength := congrArg List.length hnil
    simp [length_toGroups] at hlength
  have hparts := joined_injective (hdot bits) (hdot bits') (hne bits) (hne bits') h
  have hgroups : toGroups 256 4 bits = toGroups 256 4 bits' :=
    List.map_injective_iff.mpr decimal_injective hparts
  exact toGroups_injective (by simpa using hbits) (by simpa using hbits') hgroups

theorem colon_notMem_dotted (bits : Nat) :
    ':' ∉ joined ['.'] ((toGroups 256 4 bits).map decimal) := by
  intro h
  rcases mem_joined h with hdot | ⟨part, hpart, hmem⟩
  · exact absurd hdot (by decide)
  · obtain ⟨n, -, rfl⟩ := List.mem_map.mp hpart
    exact notMem_decimal rfl n hmem

theorem dot_mem_dotted (bits : Nat) : '.' ∈ joined ['.'] ((toGroups 256 4 bits).map decimal) := by
  simp [toGroups, joined_cons_cons]

theorem dot_notMem_v6 (groups : List Nat) : '.' ∉ joined [':'] (v6_parts groups) := by
  intro h
  rcases mem_joined h with hcolon | ⟨part, hpart, hmem⟩
  · exact absurd hcolon (by decide)
  · rcases mem_v6_parts hpart with rfl | ⟨n, rfl⟩
    · cases hmem
    · exact dot_notMem_hex n hmem

theorem joined_v6_injective {bits bits' : BitVec 128}
    (h : joined [':'] (v6_parts (toGroups 65536 8 bits.toNat)) =
      joined [':'] (v6_parts (toGroups 65536 8 bits'.toNat))) : bits = bits' := by
  have hcolon : ∀ groups, ∀ part ∈ v6_parts groups, ':' ∉ part := by
    intro groups part hpart
    rcases mem_v6_parts hpart with rfl | ⟨n, rfl⟩
    · simp
    · exact colon_notMem_hex n
  have hne : ∀ bits, v6_parts (toGroups 65536 8 bits) ≠ [] := by
    intro bits
    have height : 2 ≤ (toGroups 65536 8 bits).length := by simp [length_toGroups]
    have hlength := two_le_length_v6_parts height
    intro hnil
    simp [hnil] at hlength
  have hparts := joined_injective (hcolon _) (hcolon _) (hne _) (hne _) h
  have hgroups := v6_parts_injective (by simp [length_toGroups]) hparts
  have hbound : ∀ bits : BitVec 128, bits.toNat < 65536 ^ 8 := by
    intro bits
    simpa using bits.isLt
  exact BitVec.eq_of_toNat_eq (toGroups_injective (hbound bits) (hbound bits') hgroups)

theorem mapped_injective {bits bits' : BitVec 128}
    (h : (toGroups 65536 8 bits.toNat).take 6 = (toGroups 65536 8 bits'.toNat).take 6)
    (hlow : bits.toNat % 2 ^ 32 = bits'.toNat % 2 ^ 32) : bits = bits' := by
  have hsplit : ∀ n, (toGroups 65536 8 n).take 6 = toGroups 65536 6 (n / 2 ^ 32) := by
    intro n
    simp [toGroups, Nat.div_div_eq_div_mul]
  have hbound : ∀ bits : BitVec 128, bits.toNat / 2 ^ 32 < 65536 ^ 6 := by
    intro bits
    apply Nat.div_lt_of_lt_mul
    simpa using bits.isLt
  rw [hsplit, hsplit] at h
  have hhigh := toGroups_injective (hbound bits) (hbound bits') h
  apply BitVec.eq_of_toNat_eq
  rw [← Nat.div_add_mod bits.toNat (2 ^ 32), hhigh, hlow, Nat.div_add_mod]

theorem mem_joined_separator {c : Char} {parts : List Text} (h : 2 ≤ parts.length) :
    c ∈ joined [c] parts := by
  rcases parts with _ | ⟨part, _ | ⟨next, rest⟩⟩
  · cases h
  · simp at h
  · rw [joined_cons_cons]
    exact List.mem_append_right _ List.mem_cons_self

theorem colon_mem_v6 (bits : BitVec 128) : ':' ∈ IpAddr.to_string (.V6 bits) := by
  by_cases hmapped : (toGroups 65536 8 bits.toNat).take 6 = [0, 0, 0, 0, 0, 65535]
  · rw [to_string_mapped hmapped]
    exact List.mem_append_left _ (by decide)
  · rw [to_string_v6 hmapped]
    apply mem_joined_separator
    exact two_le_length_v6_parts (by simp [length_toGroups])

/-- Addresses are written apart. -/
theorem to_string_injective : Function.Injective IpAddr.to_string := by
  intro ip ip' h
  cases ip with
  | V4 bits =>
    cases ip' with
    | V4 bits' => exact congrArg _ (BitVec.eq_of_toNat_eq (dotted_injective bits.isLt bits'.isLt h))
    | V6 bits' =>
      have hcolon := colon_mem_v6 bits'
      rw [← h] at hcolon
      exact absurd hcolon (colon_notMem_dotted bits.toNat)
  | V6 bits =>
    cases ip' with
    | V4 bits' =>
      have hcolon := colon_mem_v6 bits
      rw [h] at hcolon
      exact absurd hcolon (colon_notMem_dotted bits'.toNat)
    | V6 bits' =>
      by_cases hmapped : (toGroups 65536 8 bits.toNat).take 6 = [0, 0, 0, 0, 0, 65535]
      · rw [to_string_mapped hmapped] at h
        by_cases hmapped' : (toGroups 65536 8 bits'.toNat).take 6 = [0, 0, 0, 0, 0, 65535]
        · rw [to_string_mapped hmapped'] at h
          have hlow := dotted_injective (Nat.mod_lt _ (by decide)) (Nat.mod_lt _ (by decide))
            (List.append_cancel_left h)
          exact congrArg _ (mapped_injective (hmapped.trans hmapped'.symm) hlow)
        · rw [to_string_v6 hmapped'] at h
          have hdot := List.mem_append_right "::ffff:".toList (dot_mem_dotted (bits.toNat % 2 ^ 32))
          rw [h] at hdot
          exact absurd hdot (dot_notMem_v6 _)
      · rw [to_string_v6 hmapped] at h
        by_cases hmapped' : (toGroups 65536 8 bits'.toNat).take 6 = [0, 0, 0, 0, 0, 65535]
        · rw [to_string_mapped hmapped'] at h
          have hdot := List.mem_append_right "::ffff:".toList
            (dot_mem_dotted (bits'.toNat % 2 ^ 32))
          rw [← h] at hdot
          exact absurd hdot (dot_notMem_v6 _)
        · rw [to_string_v6 hmapped'] at h
          exact congrArg _ (joined_v6_injective h)

theorem nul_notMem_to_string (ip : IpAddr) : Char.ofNat 0 ∉ ip.to_string := by
  have hdotted : ∀ bits, Char.ofNat 0 ∉ joined ['.'] ((toGroups 256 4 bits).map decimal) := by
    intro bits h
    rcases mem_joined h with hdot | ⟨part, hpart, hmem⟩
    · exact absurd hdot (by decide)
    · obtain ⟨n, -, rfl⟩ := List.mem_map.mp hpart
      exact notMem_decimal (by decide) n hmem
  cases ip with
  | V4 bits => exact hdotted bits.toNat
  | V6 bits =>
    by_cases hmapped : (toGroups 65536 8 bits.toNat).take 6 = [0, 0, 0, 0, 0, 65535]
    · rw [to_string_mapped hmapped]
      intro h
      rcases List.mem_append.mp h with hstart | hrest
      · exact absurd hstart (by decide)
      · exact hdotted _ hrest
    · rw [to_string_v6 hmapped]
      intro h
      rcases mem_joined h with hcolon | ⟨part, hpart, hmem⟩
      · exact absurd hcolon (by decide)
      · rcases mem_v6_parts hpart with rfl | ⟨n, rfl⟩
        · cases hmem
        · obtain ⟨d, hd, hc⟩ := mem_hex hmem
          revert hc
          revert d
          decide

theorem bracket_notMem_dotted (bits : Nat) :
    '[' ∉ joined ['.'] ((toGroups 256 4 bits).map decimal) := by
  intro h
  rcases mem_joined h with hdot | ⟨part, hpart, hmem⟩
  · exact absurd hdot (by decide)
  · obtain ⟨n, -, rfl⟩ := List.mem_map.mp hpart
    exact notMem_decimal rfl n hmem

/-- Socket addresses are written apart. -/
theorem socket_to_string_injective : Function.Injective SocketAddr.to_string := by
  rintro ⟨ip, port⟩ ⟨ip', port'⟩ h
  unfold SocketAddr.to_string at h
  obtain ⟨hhost, hport⟩ := append_cons_inj (notMem_decimal rfl port) (notMem_decimal rfl port') h
  obtain rfl : port = port' := decimal_injective hport
  refine congrArg (SocketAddr.mk · port) ?_
  cases ip with
  | V4 bits =>
    cases ip' with
    | V4 bits' => exact to_string_injective hhost
    | V6 bits' =>
      have hbracket : '[' ∈ IpAddr.to_string (.V4 bits) := by
        dsimp only at hhost
        rw [hhost]
        exact List.mem_cons_self
      exact absurd hbracket (bracket_notMem_dotted bits.toNat)
  | V6 bits =>
    cases ip' with
    | V4 bits' =>
      have hbracket : '[' ∈ IpAddr.to_string (.V4 bits') := by
        dsimp only at hhost
        rw [← hhost]
        exact List.mem_cons_self
      exact absurd hbracket (bracket_notMem_dotted bits'.toNat)
    | V6 bits' =>
      dsimp only at hhost
      rw [List.cons_append, List.cons_append, List.cons.injEq] at hhost
      exact to_string_injective (List.append_cancel_right hhost.2)

end rust_net
