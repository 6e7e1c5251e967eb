import Loggregator.Doppler.SyslogDrains

/-!
# The blacklist and IP literals

`ValidateIpAddresses` (`iprange/ip_range.go`) and what `CheckUrl` does with a URL whose host is an
IP literal. The host is cut at its first colon. For an IPv4 literal that takes the port off; of an
IPv6 literal it leaves the bracket and the first group of digits, which is neither an address nor
the name of a host.
-/

namespace Loggregator.Doppler

open Lib

namespace IPRange

/-- The errors of `ValidateIpAddresses`. -/
inductive InvalidRange where
  | address (ip : GoString)
  | startAfterEnd (start stop : GoString)
  deriving DecidableEq

/-- The text of an error. -/
def InvalidRange.error : InvalidRange → GoString
  | .address ip => str "Invalid IP Address for Blacklist IP Range: " ++ ip
  | .startAfterEnd start stop =>
    str "Invalid Blacklist IP Range: Start " ++ start ++ str " has to be before End " ++ stop

/-- `ValidateIpAddresses`: the error for the first range that has one. -/
def validateIpAddresses : List Range → Option InvalidRange
  | [] => none
  | ipRange :: ranges =>
    match IP.parseIP ipRange.start, IP.parseIP ipRange.stop with
    | none, _ => some (.address ipRange.start)
    | some _, none => some (.address ipRange.stop)
    | some startIP, some endIP =>
      if endIP < startIP then some (.startAfterEnd ipRange.start ipRange.stop)
      else validateIpAddresses ranges

/-- An error names the addresses of a range at fault. -/
theorem mem_of_validateIpAddresses {ranges : List Range} {e : InvalidRange}
    (h : validateIpAddresses ranges = some e) : ∃ r ∈ ranges,
      (∃ ip, (ip = r.start ∨ ip = r.stop) ∧ IP.parseIP ip = none ∧ e = .address ip) ∨
      (∃ startIP endIP, IP.parseIP r.start = some startIP ∧ IP.parseIP r.stop = some endIP ∧
        endIP < startIP ∧ e = .startAfterEnd r.start r.stop) := by
  induction ranges with
  | nil => cases h
  | cons ipRange ranges ih =>
    unfold validateIpAddresses at h
    split at h
    · next hstart =>
      cases h
      exact ⟨ipRange, List.mem_cons_self, Or.inl ⟨_, Or.inl rfl, hstart, rfl⟩⟩
    · next hend =>
      cases h
      exact ⟨ipRange, List.mem_cons_self, Or.inl ⟨_, Or.inr rfl, hend, rfl⟩⟩
    · next startIP endIP hstart hend =>
      split at h
      · next hlt =>
        cases h
        exact ⟨ipRange, List.mem_cons_self, Or.inr ⟨startIP, endIP, hstart, hend, hlt, rfl⟩⟩
      · obtain ⟨r, hr, hfault⟩ := ih h
        exact ⟨r, List.mem_cons_of_mem _ hr, hfault⟩

/-- The addresses of a range. -/
theorem exists_of_validateIpAddresses {ranges : List Range}
    (h : validateIpAddresses ranges = none) : ∀ r ∈ ranges,
      ∃ startIP endIP, IP.parseIP r.start = some startIP ∧ IP.parseIP r.stop = some endIP := by
  induction ranges with
  | nil => simp
  | cons ipRange ranges ih =>
    unfold validateIpAddresses at h
    split at h
    · cases h
    · cases h
    · next startIP endIP hstart hend =>
      split at h
      · cases h
      · intro r hr
        rcases List.mem_cons.mp hr with rfl | hr
        · exact ⟨startIP, endIP, hstart, hend⟩
        · exact ih h r hr

/-- The number of an address lies between those of the ends of a range. -/
def InRanges (ranges : List Range) (ip : List UInt8) : Prop :=
  ∃ r ∈ ranges, ∃ startIP endIP, IP.parseIP r.start = some startIP ∧
    IP.parseIP r.stop = some endIP ∧ IP.toNat startIP ≤ IP.toNat ip ∧ IP.toNat ip ≤ IP.toNat endIP

/-- The loop over the ranges finds those that an address of sixteen bytes lies in. -/
theorem any_range_iff {ranges : List Range} (hvalid : validateIpAddresses ranges = none)
    {ip : List UInt8} (hip : ip.length = 16) :
    ranges.any (fun r => decide ((IP.parseIP r.start).getD [] ≤ ip) &&
      decide (ip ≤ (IP.parseIP r.stop).getD [])) = true ↔ InRanges ranges ip := by
  have hbounds : ∀ {s e : GoString} {startIP endIP : List UInt8},
      IP.parseIP s = some startIP → IP.parseIP e = some endIP →
      (startIP ≤ ip ↔ IP.toNat startIP ≤ IP.toNat ip) ∧
        (ip ≤ endIP ↔ IP.toNat ip ≤ IP.toNat endIP) := by
    intro s e startIP endIP hs he
    exact ⟨IP.le_iff_toNat_le ((IP.parseIP_length hs).trans hip.symm),
      IP.le_iff_toNat_le (hip.trans (IP.parseIP_length he).symm)⟩
  rw [List.any_eq_true]
  constructor
  · rintro ⟨r, hr, hin⟩
    obtain ⟨startIP, endIP, hs, he⟩ := exists_of_validateIpAddresses hvalid r hr
    obtain ⟨hstart, hend⟩ := hbounds hs he
    rw [hs, he, Bool.and_eq_true, decide_eq_true_iff, decide_eq_true_iff] at hin
    exact ⟨r, hr, startIP, endIP, hs, he, hstart.mp hin.1, hend.mp hin.2⟩
  · rintro ⟨r, hr, startIP, endIP, hs, he, hle, hge⟩
    obtain ⟨hstart, hend⟩ := hbounds hs he
    refine ⟨r, hr, ?_⟩
    rw [hs, he, Bool.and_eq_true, decide_eq_true_iff, decide_eq_true_iff]
    exact ⟨hstart.mpr hle, hend.mpr hge⟩

end IPRange

/-! ## Hosts that are IP literals -/

/-- Nothing, or a colon and the text of a port. -/
def PortSuffix (port : GoString) : Prop := port = [] ∨ port.head? = some colon

/-- The host is an IPv4 address. -/
def IPv4Host (host : GoString) (ip : List UInt8) : Prop :=
  ∃ text port, host = text ++ port ∧ PortSuffix port ∧ colon ∉ text ∧ IP.parseIP text = some ip

/-- The host is an IPv6 address in brackets. -/
def IPv6Host (host : GoString) (ip : List UInt8) : Prop :=
  ∃ text port, host = openBracket :: (text ++ closeBracket :: port) ∧ PortSuffix port ∧
    colon ∈ text ∧ IP.parseIP text = some ip

/-- The bytes of host names. -/
def hostNameByte (c : UInt8) : Bool :=
  Url.isLower c || Url.isUpper c || Url.isDigit c || (str "-._").contains c

/-- The resolution of a text that is not a host name fails. -/
def ResolvesNamesOnly (resolve : GoString → Option GoString) : Prop :=
  ∀ host, (∃ c ∈ host, hostNameByte c = false) → resolve host = none

/-- What is left of a bracketed address is not read as an address. -/
theorem parseIP_openBracket {s : GoString} (hs : colon ∉ s) :
    IP.parseIP (openBracket :: s) = none := by
  unfold IP.parseIP
  split
  · rfl
  · next c hc =>
    have hmem : c ∈ openBracket :: s := List.mem_of_find?_eq_some hc
    split
    · next hcolon =>
      rw [hcolon] at hmem
      rcases List.mem_cons.mp hmem with h | h
      · exact absurd h (by decide)
      · exact absurd h hs
    · rfl

section CheckUrl

variable {m : URLBlacklistManager} {rawUrl : GoString} {u : Url} {ip : List UInt8}

theorem checkUrl_ipv4 (hvalid : IPRange.validateIpAddresses m.blacklistIPs = none)
    (hparse : Url.parse rawUrl = .ok u) (hhost : IPv4Host u.host ip) :
    (∃ e, m.checkUrl rawUrl = .error e) ↔ IPRange.InRanges m.blacklistIPs ip := by
  obtain ⟨text, port, hu, hport, htext, hip⟩ := hhost
  have hcut : u.host.takeWhile (fun b => b != colon) = text := by
    rw [hu]
    exact congrArg Prod.fst (Url.split_append htext hport)
  have hne : u.host ≠ [] := by
    intro h
    rw [h] at hcut
    rw [← hcut] at hip
    cases hip
  have hany := IPRange.any_range_iff hvalid (IP.parseIP_length hip)
  simp only [URLBlacklistManager.checkUrl, hparse, IPRange.ipOutsideOfRanges, if_neg hne, hcut, hip]
  rw [← hany]
  cases List.any m.blacklistIPs _ <;> simp

/-- The address of a bracketed host is never looked at. -/
theorem checkUrl_ipv6 (hresolve : ResolvesNamesOnly m.resolve)
    (hparse : Url.parse rawUrl = .ok u) (hhost : IPv6Host u.host ip) :
    m.checkUrl rawUrl = .ok u := by
  obtain ⟨text, port, hu, -, -, -⟩ := hhost
  have hcut : u.host.takeWhile (fun b => b != colon) = openBracket ::
      (text ++ closeBracket :: port).takeWhile (fun b => b != colon) := by
    rw [hu]
    exact List.takeWhile_cons_of_pos (by decide)
  have hnone := parseIP_openBracket
    (s := (text ++ closeBracket :: port).takeWhile (fun b => b != colon))
    (fun h => by simpa using List.mem_takeWhile_imp h)
  have hname := hresolve (u.host.takeWhile (fun b => b != colon))
    ⟨openBracket, by rw [hcut]; exact List.mem_cons_self, by decide⟩
  have hne : u.host ≠ [] := by
    rw [hu]
    exact List.cons_ne_nil _ _
  rw [hcut] at hname
  simp only [URLBlacklistManager.checkUrl, hparse, IPRange.ipOutsideOfRanges, if_neg hne, hcut,
    hnone, hname]

end CheckUrl

/-- `CheckUrl` refuses the IP literals of the blacklisted ranges, and no others, except that it
lets every bracketed address pass. -/
theorem checkUrl_blacklists_iff (m : URLBlacklistManager) (rawUrl : GoString) (u : Url)
    (ip : List UInt8) (hvalid : IPRange.validateIpAddresses m.blacklistIPs = none)
    (hresolve : ResolvesNamesOnly m.resolve) (hparse : Url.parse rawUrl = .ok u)
    (hhost : IPv4Host u.host ip ∨ IPv6Host u.host ip) :
    ((∃ e, m.checkUrl rawUrl = .error e) ↔ IPRange.InRanges m.blacklistIPs ip) ↔
      (IPv4Host u.host ip ∨ ¬ IPRange.InRanges m.blacklistIPs ip) := by
  rcases hhost with hhost | hhost
  · exact ⟨fun _ => Or.inl hhost, fun _ => checkUrl_ipv4 hvalid hparse hhost⟩
  · have hcheck := checkUrl_ipv6 hresolve hparse hhost
    have hnot : ¬ ∃ e, m.checkUrl rawUrl = .error e := by
      rintro ⟨e, he⟩
      rw [hcheck] at he
      cases he
    constructor
    · intro hiff
      exact Or.inr (fun hin => hnot (hiff.mpr hin))
    · rintro (hv4 | hout)
      · exact checkUrl_ipv4 hvalid hparse hv4
      · exact ⟨fun he => absurd he hnot, fun hin => absurd hin hout⟩

/-- A blacklisted IPv4 address with a port. -/
theorem checkUrl_refuses_ipv4 :
    let m : URLBlacklistManager := { blacklistIPs := [⟨str "127.0.2.2", str "127.0.2.4"⟩] }
    ∃ e, m.checkUrl (str "syslog://127.0.2.3:3000") = .error e := by
  intro m
  have hparse : Url.parse (str "syslog://127.0.2.3:3000") =
      .ok { scheme := str "syslog", host := str "127.0.2.3:3000" } := by decide +kernel
  have hhost : IPv4Host (str "127.0.2.3:3000")
      (List.replicate 10 0 ++ [255, 255, 127, 0, 2, 3]) :=
    ⟨str "127.0.2.3", str ":3000", by decide, Or.inr rfl, by decide, by decide +kernel⟩
  refine ((checkUrl_blacklists_iff m _ _ _ (by decide +kernel) (fun _ _ => rfl) hparse
    (Or.inl hhost)).mpr (Or.inl hhost)).mpr ?_
  exact ⟨_, List.mem_singleton_self _, List.replicate 10 0 ++ [255, 255, 127, 0, 2, 2],
    List.replicate 10 0 ++ [255, 255, 127, 0, 2, 4], by decide +kernel, by decide +kernel,
    by decide +kernel, by decide +kernel⟩

/-- A blacklisted IPv6 address is not refused. -/
theorem checkUrl_accepts_ipv6 :
    let m : URLBlacklistManager := { blacklistIPs := [⟨str "2001:db8::", str "2001:db8::ff"⟩] }
    let ip : List UInt8 := [0x20, 0x01, 0x0d, 0xb8, 0, 0, 0, 0, 0, 0, 0, 0, 0, 0, 0, 1]
    IPRange.validateIpAddresses m.blacklistIPs = none ∧ ResolvesNamesOnly m.resolve ∧
    ∃ u, Url.parse (str "syslog://[2001:db8::1]:514") = .ok u ∧ IPv6Host u.host ip ∧
      IPRange.InRanges m.blacklistIPs ip ∧
      m.checkUrl (str "syslog://[2001:db8::1]:514") = .ok u := by
  intro m ip
  have hparse : Url.parse (str "syslog://[2001:db8::1]:514") =
      .ok { scheme := str "syslog", host := str "[2001:db8::1]:514" } := by decide +kernel
  refine ⟨by decide +kernel, fun _ _ => rfl, _, hparse, ?_, ?_, by decide +kernel⟩
  · exact ⟨str "2001:db8::1", str ":514", by decide, Or.inr rfl, by decide, by decide +kernel⟩
  · exact ⟨_, List.mem_singleton_self _,
      [0x20, 0x01, 0x0d, 0xb8, 0, 0, 0, 0, 0, 0, 0, 0, 0, 0, 0, 0],
      [0x20, 0x01, 0x0d, 0xb8, 0, 0, 0, 0, 0, 0, 0, 0, 0, 0, 0, 0xff],
      by decide +kernel, by decide +kernel, by decide +kernel, by decide +kernel⟩

end Loggregator.Doppler
