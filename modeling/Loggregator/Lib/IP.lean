import Loggregator.Lib.Url

/-!
# IP addresses

`net.ParseIP` of Go 1.8. An address is sixteen bytes, with an IPv4 address in its mapped form.
-/

namespace Loggregator.Lib.IP

open Url

/-- The bound of `dtoi` and `xtoi`. -/
def big : Nat := 0xFFFFFF

/-- The common loop of `dtoi` and `xtoi`: the number at the front of a text, in a base, and the
rest. `digits` says that at least one digit has been read. -/
def number (digit : UInt8 → Option Nat) (base : Nat) : Bool → Nat → GoString →
    Option (Nat × GoString)
  | digits, n, [] => if digits then some (n, []) else none
  | digits, n, c :: s =>
    match digit c with
    | none => if digits then some (n, c :: s) else none
    | some d => if base * n + d ≥ big then none else number digit base true (base * n + d) s

/-- `dtoi`. -/
def dtoi (s : GoString) : Option (Nat × GoString) :=
  number (fun c => if isDigit c then some (c.toNat - 48) else none) 10 false 0 s

/-- `xtoi`. -/
def xtoi (s : GoString) : Option (Nat × GoString) := number unhex 16 false 0 s

/-- The octets of `parseIPv4`, the first without a dot before it. -/
def octets : Nat → Bool → GoString → Option (List UInt8)
  | 0, _, s => if s = [] then some [] else none
  | k + 1, first, s =>
    let s := if first then some s else if s.head? = some 46 then some (s.drop 1) else none
    match s.bind dtoi with
    | some (n, rest) =>
      if n > 0xFF then none else (octets k false rest).map (fun p => UInt8.ofNat n :: p)
    | none => none

/-- The four bytes of an IPv4 address. -/
def ipv4Bytes (s : GoString) : Option (List UInt8) := octets 4 true s

/-- `parseIPv4`. -/
def parseIPv4 (s : GoString) : Option (List UInt8) :=
  (ipv4Bytes s).map (fun p => List.replicate 10 0 ++ [255, 255] ++ p)

/-- The loop of `parseIPv6`: the bytes read so far, the place of the ellipsis, and the rest of
the text. It ends after sixteen bytes, so eight rounds are enough. -/
def ipv6Loop : Nat → List UInt8 → Option Nat → GoString →
    Option (List UInt8 × Option Nat × GoString)
  | 0, ip, ellipsis, s => some (ip, ellipsis, s)
  | fuel + 1, ip, ellipsis, s =>
    if ip.length ≥ 16 then some (ip, ellipsis, s)
    else
      match xtoi s with
      | none => none
      | some (n, rest) =>
        if n > 0xFFFF then none
        else if rest.head? = some 46 then
          if ellipsis = none ∧ ip.length ≠ 12 then none
          else if ip.length + 4 > 16 then none
          else (ipv4Bytes s).map (fun p => (ip ++ p, ellipsis, []))
        else
          let ip := ip ++ [UInt8.ofNat (n / 256), UInt8.ofNat (n % 256)]
          match rest with
          | [] => some (ip, ellipsis, [])
          | [_] => none
          | c :: d :: rest =>
            if c ≠ colon then none
            else if d = colon then
              if ellipsis.isSome then none
              else if rest = [] then some (ip, some ip.length, [])
              else ipv6Loop fuel ip (some ip.length) rest
            else ipv6Loop fuel ip ellipsis (d :: rest)

/-- `parseIPv6` without a zone. -/
def parseIPv6 (s : GoString) : Option (List UInt8) :=
  let (ellipsis, s) := if (str "::").isPrefixOf s then (some 0, s.drop 2) else (none, s)
  if ellipsis = some 0 ∧ s = [] then some (List.replicate 16 0)
  else
    match ipv6Loop 8 [] ellipsis s with
    | none => none
    | some (ip, ellipsis, s) =>
      if s ≠ [] then none
      else if ip.length < 16 then
        ellipsis.map (fun e => ip.take e ++ List.replicate (16 - ip.length) 0 ++ ip.drop e)
      else if ellipsis.isSome then none
      else some ip

/-- `net.ParseIP`: the first dot or colon decides between the two forms. -/
def parseIP (s : GoString) : Option (List UInt8) :=
  match s.find? (fun c => c == 46 || c == colon) with
  | none => none
  | some c => if c = colon then parseIPv6 s else parseIPv4 s

/-! ## Addresses as numbers -/

/-- The number of an address. -/
def toNat : List UInt8 → Nat
  | [] => 0
  | b :: ip => b.toNat * 256 ^ ip.length + toNat ip

theorem toNat_lt (ip : List UInt8) : toNat ip < 256 ^ ip.length := by
  induction ip with
  | nil => simp [toNat]
  | cons b ip ih =>
    have hb : b.toNat < 256 := b.toNat_lt
    have hmul : b.toNat * 256 ^ ip.length ≤ 255 * 256 ^ ip.length :=
      Nat.mul_le_mul_right _ (by omega)
    rw [toNat, List.length_cons, Nat.pow_succ]
    omega

variable {ip : List UInt8} {s : GoString} {ellipsis : Option Nat}
    {r : List UInt8 × Option Nat × GoString}

/-- The byte-wise order of addresses of one length is the order of their numbers. -/
theorem lt_iff_toNat_lt {ip' : List UInt8} (hlength : ip.length = ip'.length) :
    ip < ip' ↔ toNat ip < toNat ip' := by
  induction ip generalizing ip' with
  | nil =>
    cases List.length_eq_zero_iff.mp hlength.symm
    simp
  | cons a ip ih =>
    cases ip' with
    | nil => cases hlength
    | cons b ip' =>
      have hlength : ip.length = ip'.length := Nat.succ.inj hlength
      have hlt := toNat_lt ip
      have hlt' := toNat_lt ip'
      rw [List.cons_lt_cons_iff, ih hlength, toNat, toNat, hlength]
      rw [hlength] at hlt
      constructor
      · rintro (hab | ⟨rfl, h⟩)
        · have hmul : (a.toNat + 1) * 256 ^ ip'.length ≤ b.toNat * 256 ^ ip'.length :=
            Nat.mul_le_mul_right _ (UInt8.lt_iff_toNat_lt.mp hab)
          rw [Nat.succ_mul] at hmul
          omega
        · omega
      · intro h
        rcases Nat.lt_trichotomy a.toNat b.toNat with hab | hab | hab
        · exact Or.inl (UInt8.lt_iff_toNat_lt.mpr hab)
        · rw [hab] at h
          exact Or.inr ⟨UInt8.toNat_inj.mp hab, by omega⟩
        · have hmul : (b.toNat + 1) * 256 ^ ip'.length ≤ a.toNat * 256 ^ ip'.length :=
            Nat.mul_le_mul_right _ hab
          rw [Nat.succ_mul] at hmul
          omega

theorem le_iff_toNat_le {ip' : List UInt8} (hlength : ip.length = ip'.length) :
    ip ≤ ip' ↔ toNat ip ≤ toNat ip' := by
  rw [← List.not_lt, lt_iff_toNat_lt hlength.symm, Nat.not_lt]

/-! ## Every address has sixteen bytes -/

/-- What `dtoi` takes is digits. -/
theorem number_bytes {digit : UInt8 → Option Nat} {base n m : Nat} {digits : Bool} {rest : GoString}
    (h : number digit base digits n s = some (m, rest)) :
    ∃ ds, s = ds ++ rest ∧ ∀ c ∈ ds, digit c ≠ none := by
  induction s generalizing digits n with
  | nil =>
    rw [number] at h
    split at h
    · cases h
      exact ⟨[], rfl, fun _ hc => (List.not_mem_nil hc).elim⟩
    · cases h
  | cons c s ih =>
    rw [number] at h
    split at h
    · split at h
      · cases h
        exact ⟨[], rfl, fun _ hc => (List.not_mem_nil hc).elim⟩
      · cases h
    · next d hd =>
      split at h
      · cases h
      · obtain ⟨ds, rfl, hds⟩ := ih h
        refine ⟨c :: ds, rfl, ?_⟩
        rw [List.forall_mem_cons]
        exact ⟨by rw [hd]; exact Option.some_ne_none d, hds⟩

/-- The octets are written with digits and dots. -/
theorem octets_bytes {k : Nat} {first : Bool} {p : List UInt8} (h : octets k first s = some p) :
    ∀ c ∈ s, isDigit c = true ∨ c = 46 := by
  induction k generalizing first s p with
  | zero =>
    rw [octets] at h
    split at h
    · next hs =>
      rw [hs]
      exact fun _ hc => (List.not_mem_nil hc).elim
    · cases h
  | succ k ih =>
    rw [octets] at h
    split at h
    · next n rest hnumber =>
      split at h
      · cases h
      · obtain ⟨p', hp', -⟩ := Option.map_eq_some_iff.mp h
        obtain ⟨t, ht, hdtoi⟩ := Option.bind_eq_some_iff.mp hnumber
        obtain ⟨ds, rfl, hds⟩ := number_bytes hdtoi
        have htext : ∀ c ∈ ds ++ rest, isDigit c = true ∨ c = 46 := by
          intro c hc
          rcases List.mem_append.mp hc with hc | hc
          · have hdigit := hds c hc
            split at hdigit
            · next hd => exact .inl hd
            · exact absurd rfl hdigit
          · exact ih hp' c hc
        split at ht
        · cases ht
          exact htext
        · split at ht
          · next hdot =>
            cases s with
            | nil => cases hdot
            | cons c s =>
              cases hdot
              rw [List.drop_one, List.tail_cons] at ht
              cases ht
              rw [List.forall_mem_cons]
              exact ⟨.inr rfl, htext⟩
          · cases ht
    · cases h

theorem parseIPv4_bytes (h : parseIPv4 s = some ip) :
    ∀ c ∈ s, isDigit c = true ∨ c = 46 := by
  obtain ⟨p, hp, -⟩ := Option.map_eq_some_iff.mp h
  exact octets_bytes hp

theorem octets_length {k : Nat} {first : Bool} {p : List UInt8} (h : octets k first s = some p) :
    p.length = k := by
  induction k generalizing first s p with
  | zero =>
    rw [octets] at h
    split at h <;> cases h
    rfl
  | succ k ih =>
    simp only [octets] at h
    split at h
    · split at h
      · cases h
      · obtain ⟨q, hq, rfl⟩ := Option.map_eq_some_iff.mp h
        rw [List.length_cons, ih hq]
    · cases h

theorem parseIPv4_length (h : parseIPv4 s = some ip) :
    ip.length = 16 := by
  obtain ⟨p, hp, rfl⟩ := Option.map_eq_some_iff.mp h
  simp [octets_length hp]

/-! ## The loop of `parseIPv6` -/

/-- What the loop does with the bytes read so far, the place of the ellipsis and the rest of the
text: it stops, or it reads the four bytes of an IPv4 form where they fit, or it reads a pair of
bytes from digits, and what follows decides whether it goes on. -/
inductive Rounds : List UInt8 → Option Nat → GoString → List UInt8 × Option Nat × GoString → Prop
  | stop (ip : List UInt8) (ellipsis : Option Nat) (s : GoString) :
      Rounds ip ellipsis s (ip, ellipsis, s)
  | ipv4 {ip p : List UInt8} {ellipsis : Option Nat} {s : GoString}
      (hfits : ip.length + 4 ≤ 16) (hbytes : ipv4Bytes s = some p) :
      Rounds ip ellipsis s (ip ++ p, ellipsis, [])
  | last {ip : List UInt8} {a b : UInt8} {ellipsis : Option Nat} {ds : GoString}
      (hroom : ip.length < 16) (hdigits : ∀ c ∈ ds, unhex c ≠ none) :
      Rounds ip ellipsis ds (ip ++ [a, b], ellipsis, [])
  | ellipsis {ip : List UInt8} {a b : UInt8} {place : Nat} {ds rest : GoString}
      {r : List UInt8 × Option Nat × GoString} (hroom : ip.length < 16)
      (hdigits : ∀ c ∈ ds, unhex c ≠ none) (hrest : Rounds (ip ++ [a, b]) (some place) rest r) :
      Rounds ip none (ds ++ colon :: colon :: rest) r
  | next {ip : List UInt8} {a b : UInt8} {ellipsis : Option Nat} {ds rest : GoString}
      {r : List UInt8 × Option Nat × GoString} (hroom : ip.length < 16)
      (hdigits : ∀ c ∈ ds, unhex c ≠ none) (hrest : Rounds (ip ++ [a, b]) ellipsis rest r) :
      Rounds ip ellipsis (ds ++ colon :: rest) r

theorem rounds_of_ipv6Loop {fuel : Nat} (h : ipv6Loop fuel ip ellipsis s = some r) :
    Rounds ip ellipsis s r := by
  induction fuel generalizing ip ellipsis s with
  | zero =>
    cases h
    exact .stop _ _ _
  | succ fuel ih =>
    simp only [ipv6Loop] at h
    split at h
    · cases h
      exact .stop _ _ _
    · next hroom =>
      split at h
      · cases h
      · next n rest hx =>
        obtain ⟨ds, rfl, hds⟩ := number_bytes hx
        have hroom : ip.length < 16 := Nat.not_le.mp hroom
        split at h
        · cases h
        · split at h
          · split at h
            · cases h
            · split at h
              · cases h
              · next hfits =>
                obtain ⟨p, hp, rfl⟩ := Option.map_eq_some_iff.mp h
                exact .ipv4 (Nat.not_lt.mp hfits) hp
          · split at h
            · cases h
              rw [List.append_nil]
              exact .last hroom hds
            · cases h
            · next c d rest =>
              split at h
              · cases h
              · next hc =>
                cases not_ne_iff.mp hc
                split at h
                · next hd =>
                  cases hd
                  split at h
                  · cases h
                  · next hnone =>
                    rw [Option.not_isSome_iff_eq_none] at hnone
                    subst hnone
                    split at h
                    · next hrest =>
                      cases hrest
                      cases h
                      exact .ellipsis hroom hds (.stop _ _ _)
                    · exact .ellipsis hroom hds (ih h)
                · exact .next hroom hds (ih h)

/-- The bytes are read in pairs, so that there are never more than sixteen. -/
theorem Rounds.length_le (h : Rounds ip ellipsis s r) (hip : ip.length ≤ 16)
    (heven : ip.length % 2 = 0) : r.1.length ≤ 16 := by
  have hpair : ∀ {ip : List UInt8}, ip.length < 16 → ip.length % 2 = 0 → ∀ a b : UInt8,
      (ip ++ [a, b]).length ≤ 16 ∧ (ip ++ [a, b]).length % 2 = 0 := by
    intro ip hlt heven a b
    simp only [List.length_append, List.length_cons, List.length_nil]
    omega
  induction h with
  | stop => exact hip
  | ipv4 hfits hbytes =>
    rw [List.length_append, octets_length hbytes]
    exact hfits
  | last hroom _ => exact (hpair hroom heven _ _).1
  | ellipsis hroom _ _ ih | next hroom _ _ ih =>
    obtain ⟨hle, hmod⟩ := hpair hroom heven _ _
    exact ih hle hmod

/-- A byte of the text of an address. -/
def AddressByte (c : UInt8) : Prop := unhex c ≠ none ∨ c = colon ∨ c = 46

theorem addressByte_of_ipv4 {c : UInt8} (h : isDigit c = true ∨ c = 46) : AddressByte c := by
  rcases h with h | h
  · left
    have hdigit : 48 ≤ c.toNat ∧ c.toNat ≤ 57 := by
      simpa [isDigit, UInt8.le_iff_toNat_le] using h
    rw [unhex, if_pos hdigit]
    exact Option.some_ne_none _
  · exact .inr (.inr h)

theorem Rounds.addressByte (h : Rounds ip ellipsis s r) (hend : r.2.2 = []) :
    ∀ c ∈ s, AddressByte c := by
  induction h with
  | stop ip ellipsis s =>
    rw [show s = [] from hend]
    exact fun _ hc => (List.not_mem_nil hc).elim
  | ipv4 _ hbytes => exact fun c hc => addressByte_of_ipv4 (octets_bytes hbytes c hc)
  | last _ hdigits => exact fun c hc => .inl (hdigits c hc)
  | ellipsis _ hdigits _ ih =>
    rw [List.forall_mem_append, List.forall_mem_cons, List.forall_mem_cons]
    exact ⟨fun c hc => .inl (hdigits c hc), .inr (.inl rfl), .inr (.inl rfl), ih hend⟩
  | next _ hdigits _ ih =>
    rw [List.forall_mem_append, List.forall_mem_cons]
    exact ⟨fun c hc => .inl (hdigits c hc), .inr (.inl rfl), ih hend⟩

/-- The ellipsis has two colons, and without one every pair of bytes but the last is followed by a
colon. -/
theorem Rounds.count_colon (h : Rounds ip none s r) :
    2 ≤ s.count colon ∨ r.2.1 = none ∧ r.1.length ≤ ip.length + 2 * s.count colon + 4 := by
  generalize hellipsis : (none : Option Nat) = ellipsis at h
  induction h with
  | stop ip _ s =>
    cases hellipsis
    exact .inr ⟨rfl, Nat.le_trans (Nat.le_add_right _ _) (Nat.le_add_right _ 4)⟩
  | ipv4 _ hbytes =>
    cases hellipsis
    refine .inr ⟨rfl, ?_⟩
    rw [List.length_append, octets_length hbytes]
    omega
  | last =>
    cases hellipsis
    refine .inr ⟨rfl, ?_⟩
    simp only [List.length_append, List.length_cons, List.length_nil]
    omega
  | ellipsis =>
    left
    simp only [List.count_append, List.count_cons_self]
    omega
  | next _ _ _ ih =>
    simp only [List.count_append, List.count_cons_self, List.length_append, List.length_cons,
      List.length_nil] at ih ⊢
    rcases ih hellipsis with ih | ⟨hnone, ih⟩
    · exact .inl (by omega)
    · exact .inr ⟨hnone, by omega⟩

section

variable (h : parseIPv6 s = some ip)
include h

/-- What `parseIPv6` accepts: an ellipsis alone, or the text that the loop reads, which may have
an ellipsis before it. Zeros are put in for the ellipsis, and there is one if bytes are
missing. -/
theorem rounds_of_parseIPv6 :
    (s = str "::" ∧ ip = List.replicate 16 0) ∨
    ∃ ellipsis s' r, Rounds [] ellipsis s' r ∧ r.2.2 = [] ∧
      (s = str "::" ++ s' ∨ s = s' ∧ ellipsis = none) ∧
      ((∃ e, r.2.1 = some e ∧
        ip = r.1.take e ++ List.replicate (16 - r.1.length) 0 ++ r.1.drop e) ∨
      16 ≤ r.1.length ∧ ip = r.1) := by
  have hstart : ∃ start : Option Nat × GoString,
      (if (str "::").isPrefixOf s then (some 0, s.drop 2) else (none, s)) = start ∧
      (s = str "::" ++ start.2 ∨ s = start.2 ∧ start.1 = none) := by
    split
    · next hfront =>
      obtain ⟨s', rfl⟩ := List.isPrefixOf_iff_prefix.mp hfront
      exact ⟨_, rfl, .inl rfl⟩
    · exact ⟨_, rfl, .inr ⟨rfl, rfl⟩⟩
  obtain ⟨⟨ellipsis, s'⟩, heq, hfront⟩ := hstart
  simp only [parseIPv6, heq] at h
  split at h
  · next hempty =>
    obtain ⟨rfl, rfl⟩ := hempty
    cases h
    rcases hfront with rfl | ⟨-, hnone⟩
    · exact .inl ⟨rfl, rfl⟩
    · cases hnone
  · split at h
    · cases h
    · next ip' ellipsis' rest hloop =>
      refine .inr ⟨ellipsis, s', _, rounds_of_ipv6Loop hloop, ?_, hfront, ?_⟩
      · split at h
        · cases h
        · next hend => exact not_ne_iff.mp hend
      · split at h
        · cases h
        · split at h
          · obtain ⟨e, he, rfl⟩ := Option.map_eq_some_iff.mp h
            exact .inl ⟨e, he, rfl⟩
          · next hfull =>
            split at h
            · cases h
            · cases h
              exact .inr ⟨Nat.not_lt.mp hfull, rfl⟩

theorem parseIPv6_length :
    ip.length = 16 := by
  obtain ⟨-, rfl⟩ | ⟨ellipsis, s', r, hrounds, -, -, hresult⟩ := rounds_of_parseIPv6 h
  · exact List.length_replicate
  · have hle := hrounds.length_le (Nat.zero_le _) rfl
    obtain ⟨e, -, rfl⟩ | ⟨hfull, rfl⟩ := hresult
    · simp only [List.length_append, List.length_take, List.length_replicate, List.length_drop]
      omega
    · omega

theorem addressByte_of_parseIPv6 :
    ∀ c ∈ s, AddressByte c := by
  have hcolon : ∀ c ∈ str "::", AddressByte c := by
    rw [show str "::" = [colon, colon] by decide]
    intro c hc
    exact .inr (.inl (by simpa using hc))
  obtain ⟨rfl, -⟩ | ⟨ellipsis, s', r, hrounds, hend, hfront, -⟩ := rounds_of_parseIPv6 h
  · exact hcolon
  · have hrest := hrounds.addressByte hend
    rcases hfront with rfl | ⟨rfl, -⟩
    · rw [List.forall_mem_append]
      exact ⟨hcolon, hrest⟩
    · exact hrest

/-- An IPv6 address has two colons at least. -/
theorem count_colon_of_parseIPv6 :
    2 ≤ s.count colon := by
  have hcolon : (str "::").count colon = 2 := by decide
  obtain ⟨rfl, -⟩ | ⟨ellipsis, s', r, hrounds, hend, hfront, hresult⟩ := rounds_of_parseIPv6 h
  · rw [hcolon]
  · rcases hfront with rfl | ⟨rfl, rfl⟩
    · rw [List.count_append, hcolon]
      exact Nat.le_add_right _ _
    · obtain hcount | ⟨hnone, hlength⟩ := hrounds.count_colon
      · exact hcount
      · -- no ellipsis, so that all sixteen bytes were read
        obtain ⟨e, he, -⟩ | ⟨hfull, -⟩ := hresult
        · rw [hnone] at he
          cases he
        · rw [List.length_nil] at hlength
          omega

end

theorem parseIP_length (h : parseIP s = some ip) :
    ip.length = 16 := by
  unfold parseIP at h
  split at h
  · cases h
  · split at h
    · exact parseIPv6_length h
    · exact parseIPv4_length h

end Loggregator.Lib.IP
