import Loggregator.Lib.IP
import Loggregator.TrafficController.AccessLog

/-!
# The client in the access log

`extractRemoteInfo` of `trafficcontroller/internal/auth/accesslog.go`. An address without a colon
has no port, and one is made up for `net.SplitHostPort`. An address with a colon is taken to have
a port. So an IPv6 address without brackets is handed over as it is, and is not split.
-/

namespace Loggregator.TrafficController

open Lib

/-! ## `net.SplitHostPort` -/

section SplitHostPort

variable {host port : GoString}

/-- The port is free of what `SplitHostPort` looks for. -/
structure IsPort (port : GoString) : Prop where
  colon : colon ∉ port
  openBracket : openBracket ∉ port
  closeBracket : closeBracket ∉ port

theorem splitHostPort_plain (hcolon : colon ∉ host) (hpercent : percent ∉ host)
    (hopen : openBracket ∉ host) (hclose : closeBracket ∉ host) (hport : IsPort port) :
    splitHostPort (host ++ colon :: port) = some (host, port) := by
  have hnotOpen : openBracket ∉ host ++ colon :: port := by
    simp only [List.mem_append, List.mem_cons, hopen, hport.openBracket, or_false, false_or]
    decide
  have hnotClose : closeBracket ∉ host ++ colon :: port := by
    simp only [List.mem_append, List.mem_cons, hclose, hport.closeBracket, or_false, false_or]
    decide
  rw [splitHostPort, Url.splitLast_append host hport.colon]
  generalize hhostport : host ++ colon :: port = hostport at hnotOpen hnotClose ⊢
  cases hostport with
  | nil => simp at hhostport
  | cons c rest =>
    have hc : c ≠ openBracket := fun h => hnotOpen (h ▸ List.mem_cons_self)
    simp only [if_neg hc, if_neg (not_or.mpr ⟨hcolon, hpercent⟩),
      if_neg (not_or.mpr ⟨hnotOpen, hnotClose⟩)]

theorem splitHostPort_brackets (hopen : openBracket ∉ host) (hclose : closeBracket ∉ host)
    (hport : IsPort port) :
    splitHostPort (openBracket :: host ++ closeBracket :: colon :: port) = some (host, port) := by
  have hinner : (host ++ closeBracket :: colon :: port).takeWhile (fun b => b != closeBracket) =
      host := by
    rw [List.takeWhile_append_of_pos, List.takeWhile_cons_of_neg, List.append_nil]
    · simp
    · intro b hb
      exact bne_iff_ne.mpr (fun h => hclose (h ▸ hb))
  have hrest : openBracket ∉ host ++ closeBracket :: colon :: port := by
    simp only [List.mem_append, List.mem_cons, hopen, hport.openBracket, or_false, false_or]
    decide
  have hlast : Url.splitLast (openBracket :: host ++ closeBracket :: colon :: port) colon =
      some (openBracket :: host ++ [closeBracket], port) := by
    have happ := Url.splitLast_append (openBracket :: host ++ [closeBracket]) hport.colon
    rwa [List.append_assoc, List.singleton_append] at happ
  rw [splitHostPort, hlast]
  simp only [List.cons_append, if_true, hinner, ne_eq, not_true_eq_false, if_false,
    if_neg (not_or.mpr ⟨hrest, hport.closeBracket⟩)]

/-- Too many colons. -/
theorem splitHostPort_colons {s : GoString} (hcount : 2 ≤ s.count colon)
    (hopen : openBracket ∉ s.head?) : splitHostPort s = none := by
  have hmem : colon ∈ s.reverse :=
    List.mem_reverse.mpr (List.count_pos_iff.mp (Nat.lt_of_lt_of_le Nat.zero_lt_two hcount))
  -- the last colon is the first one of the reversed text
  obtain ⟨last, front, hs, hlast⟩ := List.eq_append_cons_of_mem hmem
  obtain rfl : s = front.reverse ++ colon :: last.reverse := by
    rw [← List.reverse_reverse s, hs]
    simp
  have hnot : colon ∉ last.reverse := by rwa [List.mem_reverse]
  have hfront : colon ∈ front.reverse := by
    rw [List.count_append, List.count_cons_self, List.count_eq_zero_of_not_mem hnot] at hcount
    exact List.count_pos_iff.mp (by omega)
  rw [splitHostPort, Url.splitLast_append _ hnot]
  cases hcons : front.reverse ++ colon :: last.reverse with
  | nil => rfl
  | cons c rest =>
    rw [hcons] at hopen
    have hc : c ≠ openBracket := fun h => hopen (h ▸ rfl)
    simp only [if_neg hc, if_pos (show _ ∨ _ from .inl hfront)]

end SplitHostPort

/-! ## Addresses -/

/-- The text of an IPv6 address, which may have a zone after it. -/
def IsIPv6 (s : GoString) : Prop :=
  ∃ address zone, s = address ++ zone ∧ (IP.parseIPv6 address).isSome ∧
    (∀ c ∈ zone.head?, c = percent) ∧ openBracket ∉ zone ∧ closeBracket ∉ zone

/-- The address of a client in one of four forms. -/
inductive ClientAddr where
  | ipv4 (ip : GoString)
  | ipv6 (ip : GoString)
  | ipv4Port (ip port : GoString)
  | ipv6Port (ip port : GoString)

namespace ClientAddr

def Valid : ClientAddr → Prop
  | .ipv4 ip => (IP.parseIPv4 ip).isSome
  | .ipv6 ip => IsIPv6 ip
  | .ipv4Port ip port => (IP.parseIPv4 ip).isSome ∧ IsPort port
  | .ipv6Port ip port => IsIPv6 ip ∧ IsPort port

def text : ClientAddr → GoString
  | .ipv4 ip | .ipv6 ip => ip
  | .ipv4Port ip port => ip ++ colon :: port
  | .ipv6Port ip port => openBracket :: ip ++ closeBracket :: colon :: port

def host : ClientAddr → GoString
  | .ipv4 ip | .ipv6 ip | .ipv4Port ip _ | .ipv6Port ip _ => ip

def port : ClientAddr → GoString
  | .ipv4 _ | .ipv6 _ => []
  | .ipv4Port _ port | .ipv6Port _ port => port

end ClientAddr

theorem addressByte_ne {c : UInt8} (hc : IP.AddressByte c) :
    c ≠ openBracket ∧ c ≠ closeBracket ∧ c ≠ percent := by
  rcases hc with hc | rfl | rfl
  · refine ⟨?_, ?_, ?_⟩ <;>
    · rintro rfl
      exact hc (by decide)
  · decide
  · decide

/-- The bytes that an IPv4 address does not have. -/
theorem notMem_ipv4 {s : GoString} (h : (IP.parseIPv4 s).isSome) :
    colon ∉ s ∧ percent ∉ s ∧ openBracket ∉ s ∧ closeBracket ∉ s := by
  obtain ⟨ip, hip⟩ := Option.isSome_iff_exists.mp h
  have hbytes := IP.parseIPv4_bytes hip
  refine ⟨?_, ?_, ?_, ?_⟩ <;>
  · intro hmem
    exact absurd (hbytes _ hmem) (by decide)

theorem ne_nil_of_parseIPv4 {s : GoString} (h : (IP.parseIPv4 s).isSome) : s ≠ [] := by
  rintro rfl
  exact absurd h (by decide)

namespace IsIPv6

variable {s : GoString}

theorem brackets (h : IsIPv6 s) : openBracket ∉ s ∧ closeBracket ∉ s := by
  obtain ⟨address, zone, rfl, hsome, -, hopen, hclose⟩ := h
  obtain ⟨ip, hip⟩ := Option.isSome_iff_exists.mp hsome
  have hbytes := IP.addressByte_of_parseIPv6 hip
  simp only [List.mem_append, hopen, hclose, or_false]
  exact ⟨fun hmem => (addressByte_ne (hbytes _ hmem)).1 rfl,
    fun hmem => (addressByte_ne (hbytes _ hmem)).2.1 rfl⟩

theorem two_le_count (h : IsIPv6 s) : 2 ≤ s.count colon := by
  obtain ⟨address, zone, rfl, hsome, -⟩ := h
  obtain ⟨ip, hip⟩ := Option.isSome_iff_exists.mp hsome
  have hcount := IP.count_colon_of_parseIPv6 hip
  rw [List.count_append]
  omega

theorem colon_mem (h : IsIPv6 s) : colon ∈ s :=
  List.count_pos_iff.mp (Nat.lt_of_lt_of_le Nat.zero_lt_two h.two_le_count)

end IsIPv6

namespace ClientAddr

theorem text_ne_nil {addr : ClientAddr} (h : addr.Valid) : addr.text ≠ [] := by
  cases addr with
  | ipv4 ip => exact ne_nil_of_parseIPv4 h
  | ipv6 ip => exact List.ne_nil_of_mem h.colon_mem
  | ipv4Port ip port | ipv6Port ip port => simp [text]

/-- What is handed to `SplitHostPort`. -/
def hostPort (addr : ClientAddr) : GoString :=
  if colon ∈ addr.text then addr.text else addr.text ++ [colon]

theorem splitHostPort_hostPort {addr : ClientAddr} (h : addr.Valid)
    (hbare : ∀ ip, addr ≠ .ipv6 ip) :
    splitHostPort addr.hostPort = some (addr.host, addr.port) := by
  have hnil : IsPort [] := ⟨List.not_mem_nil, List.not_mem_nil, List.not_mem_nil⟩
  cases addr with
  | ipv4 ip =>
    obtain ⟨hcolon, hpercent, hopen, hclose⟩ := notMem_ipv4 h
    rw [hostPort, text, if_neg hcolon]
    exact splitHostPort_plain hcolon hpercent hopen hclose hnil
  | ipv6 ip => exact absurd rfl (hbare ip)
  | ipv4Port ip port =>
    obtain ⟨hip, hport⟩ := h
    obtain ⟨hcolon, hpercent, hopen, hclose⟩ := notMem_ipv4 hip
    rw [hostPort, text, if_pos (by simp)]
    exact splitHostPort_plain hcolon hpercent hopen hclose hport
  | ipv6Port ip port =>
    obtain ⟨hip, hport⟩ := h
    obtain ⟨hopen, hclose⟩ := hip.brackets
    rw [hostPort, text, if_pos (by simp)]
    exact splitHostPort_brackets hopen hclose hport

/-- The colons of the address are taken for that of a port. -/
theorem splitHostPort_ipv6 {ip : GoString} (h : IsIPv6 ip) :
    splitHostPort (hostPort (.ipv6 ip)) = none := by
  rw [hostPort, text, if_pos h.colon_mem]
  apply splitHostPort_colons h.two_le_count
  intro hhead
  exact h.brackets.1 (List.mem_of_mem_head? hhead)

end ClientAddr

/-! ## The client of a request -/

namespace AccessLog

/-- The first element of `X-Forwarded-For`, or the remote address when there is no such header. -/
def clientText (al : AccessLog) : GoString :=
  if al.request.headerGet (str "X-Forwarded-For") = [] then al.request.remoteAddr
  else (al.request.headerGet (str "X-Forwarded-For")).takeWhile (fun b => b != comma)

theorem extractRemoteInfo_eq (al : AccessLog) (h : al.clientText ≠ []) :
    al.extractRemoteInfo =
      (splitHostPort (if colon ∈ al.clientText then al.clientText
        else al.clientText ++ [colon])).getD ([], []) := by
  have hremote : (if (al.request.headerGet (str "X-Forwarded-For")).takeWhile
      (fun b => b != comma) = [] then al.request.remoteAddr
      else (al.request.headerGet (str "X-Forwarded-For")).takeWhile (fun b => b != comma)) =
      al.clientText := by
    rw [clientText] at h ⊢
    split at h
    · next hnone => simp [hnone]
    · next hsome => rw [if_neg h, if_neg hsome]
  rw [extractRemoteInfo]
  simp only [hremote]

end AccessLog

/-- For every request whose client is given as an IPv4 address or an IPv6 address, with a port or
without: `extractRemoteInfo` returns the address and the port exactly if it is not an IPv6 address
without a port, for which it returns two empty texts. -/
theorem remote_info_iff (al : AccessLog) (addr : ClientAddr) (hvalid : addr.Valid)
    (hclient : al.clientText = addr.text) :
    (al.extractRemoteInfo = (addr.host, addr.port) ↔ ∀ ip, addr ≠ .ipv6 ip) ∧
    ((∃ ip, addr = .ipv6 ip) → al.extractRemoteInfo = ([], [])) := by
  have hextract : al.extractRemoteInfo = (splitHostPort addr.hostPort).getD ([], []) := by
    rw [al.extractRemoteInfo_eq (by rw [hclient]; exact addr.text_ne_nil hvalid), hclient,
      ClientAddr.hostPort]
  have hempty : (∃ ip, addr = .ipv6 ip) → al.extractRemoteInfo = ([], []) := by
    rintro ⟨ip, rfl⟩
    rw [hextract, ClientAddr.splitHostPort_ipv6 hvalid, Option.getD_none]
  refine ⟨⟨?_, ?_⟩, hempty⟩
  · rintro heq ip rfl
    rw [hempty ⟨ip, rfl⟩, Prod.mk.injEq] at heq
    exact ClientAddr.text_ne_nil hvalid heq.1.symm
  · intro hbare
    rw [hextract, ClientAddr.splitHostPort_hostPort hvalid hbare, Option.getD_some]

/-- A request that was forwarded, from the address given. -/
def forwardedAccess (address : GoString) : AccessLog where
  request :=
    { method := str "GET"
      url := { path := str "/apps/a1/stream" }
      header := (∅ : Dict GoString (List GoString)).insert (str "X-Forwarded-For") [address]
      remoteAddr := str "10.0.0.1:4711" }
  timestamp := 1500000000123456789
  host := str "10.0.0.2"
  port := 8080

theorem remote_info_ipv6Port :
    (forwardedAccess (str "[2001:db8::1]:443, 10.0.0.9")).extractRemoteInfo =
      (str "2001:db8::1", str "443") := by
  have hip : IsIPv6 (str "2001:db8::1") :=
    ⟨str "2001:db8::1", [], by simp, by decide, by simp, by simp, by simp⟩
  have hport : IsPort (str "443") := ⟨by decide, by decide, by decide⟩
  refine (remote_info_iff _ (.ipv6Port (str "2001:db8::1") (str "443")) ⟨hip, hport⟩ ?_).1.mpr ?_
  · decide
  · intro ip h
    cases h

/-- An IPv6 address without a port, as proxies put it into the header, is lost. -/
theorem remote_info_bare_ipv6 :
    IsIPv6 (str "2001:db8::1") ∧
    (forwardedAccess (str "2001:db8::1")).clientText = str "2001:db8::1" ∧
    (forwardedAccess (str "2001:db8::1")).extractRemoteInfo = ([], []) := by
  refine ⟨⟨str "2001:db8::1", [], by simp, by decide, by simp, by simp, by simp⟩, ?_, ?_⟩
  · decide
  · decide

end Loggregator.TrafficController
