import Loggregator.Lib.Bytes
import Mathlib.Data.List.TakeWhile

/-!
# URLs

`net/url` of Go 1.8: `Parse` and what it uses. The field `RawPath`, a hint for printing, is left
out. A query is split into its pairs. A plain URL is one without user info, query, fragment and
escapes, whose parts are read off its text.
-/

namespace Loggregator.Lib

/-- The bytes that separate the parts of a URL. -/
def hashSign : UInt8 := 35
def percent : UInt8 := 37
def slash : UInt8 := 47
def colon : UInt8 := 58
def question : UInt8 := 63
def atSign : UInt8 := 64
def openBracket : UInt8 := 91
def closeBracket : UInt8 := 93

/-- `url.Userinfo`. -/
structure Userinfo where
  username : GoString
  password : Option GoString := none
  deriving DecidableEq

/-- `url.URL`. -/
structure Url where
  scheme : GoString := []
  opaquePart : GoString := []
  user : Option Userinfo := none
  host : GoString := []
  path : GoString := []
  forceQuery : Bool := false
  rawQuery : GoString := []
  fragment : GoString := []
  deriving DecidableEq

namespace Url

/-- The errors of `Parse`. -/
inductive ParseError where
  | escape (s : GoString)
  | invalidHost (c : UInt8)
  | missingScheme
  | colonInFirstSegment
  | missingBracket
  | invalidPort (port : GoString)
  deriving DecidableEq

/-- The parts of a URL with their own rules for escapes. -/
inductive Encoding where
  | path
  | host
  | zone
  | userPassword
  | fragment
  deriving DecidableEq

def isLower (c : UInt8) : Bool := 97 ≤ c && c ≤ 122

def isUpper (c : UInt8) : Bool := 65 ≤ c && c ≤ 90

def isDigit (c : UInt8) : Bool := 48 ≤ c && c ≤ 57

/-- The bytes that may stand in a host: `!shouldEscape(c, encodeHost)`. -/
def hostByte (c : UInt8) : Bool :=
  isLower c || isUpper c || isDigit c ||
    (str "!$&'()*+,;=:[]<>\"-_.~").contains c

/-- `split`: the text before the first `c`, and the rest with or without it. -/
def split (s : GoString) (c : UInt8) (cutc : Bool) : GoString × GoString :=
  let rest := s.dropWhile (fun b => b != c)
  (s.takeWhile (fun b => b != c), if cutc then rest.drop 1 else rest)

/-- Split at the last `c`, if there is one. -/
def splitLast (s : GoString) (c : UInt8) : Option (GoString × GoString) :=
  if c ∈ s then
    some (((s.reverse.dropWhile (fun b => b != c)).drop 1).reverse,
      (s.reverse.takeWhile (fun b => b != c)).reverse)
  else none

/-- `unescape`, which fails at the first byte that is not allowed. -/
def unescape (mode : Encoding) : GoString → Except ParseError GoString
  | [] => .ok []
  | c :: s =>
    if c = percent then
      match s with
      | a :: b :: s =>
        match unhex a, unhex b with
        | some ha, some hb =>
          let v := UInt8.ofNat (16 * ha + hb)
          if mode = .host ∧ ha < 8 ∧ [a, b] ≠ str "25" then .error (.escape [c, a, b])
          else if mode = .zone ∧ [a, b] ≠ str "25" ∧ v ≠ 32 ∧ ¬ hostByte v then
            .error (.escape [c, a, b])
          else (unescape mode s).map (fun t => v :: t)
        | _, _ => .error (.escape [c, a, b])
      | s => .error (.escape (c :: s))
    else if (mode = .host ∨ mode = .zone) ∧ c < 128 ∧ ¬ hostByte c then .error (.invalidHost c)
    else (unescape mode s).map (fun t => c :: t)

/-- The loop of `getscheme`; `first` says that no byte has been read. -/
def getSchemeLoop (rawurl : GoString) : Bool → GoString → GoString →
    Except ParseError (GoString × GoString)
  | _, _, [] => .ok ([], rawurl)
  | first, scheme, c :: s =>
    if isLower c || isUpper c then getSchemeLoop rawurl false (scheme ++ [c]) s
    else if isDigit c || (str "+-.").contains c then
      if first then .ok ([], rawurl) else getSchemeLoop rawurl false (scheme ++ [c]) s
    else if c = colon then
      if first then .error .missingScheme else .ok (scheme, s)
    else .ok ([], rawurl)

/-- `getscheme`. -/
def getScheme (rawurl : GoString) : Except ParseError (GoString × GoString) :=
  getSchemeLoop rawurl true [] rawurl

/-- `strings.ToLower` of a scheme. -/
def toLower (s : GoString) : GoString := s.map (fun c => if isUpper c then c + 32 else c)

/-- `validOptionalPort`. -/
def validOptionalPort : GoString → Bool
  | [] => true
  | c :: s => c == colon && s.all isDigit

/-- The text before the first `%25`, and the rest from there. -/
def splitZone : GoString → Option (GoString × GoString)
  | [] => none
  | c :: s =>
    if (str "%25").isPrefixOf (c :: s) then some ([], c :: s)
    else (splitZone s).map (fun p => (c :: p.1, p.2))

/-- `parseHost`. -/
def parseHost (host : GoString) : Except ParseError GoString :=
  if host.head? = some openBracket then
    match splitLast host closeBracket with
    | none => .error .missingBracket
    | some (inside, colonPort) =>
      if !validOptionalPort colonPort then .error (.invalidPort colonPort)
      else
        match splitZone inside with
        | some (address, zone) => do
          let host1 ← unescape .host address
          let host2 ← unescape .zone zone
          let host3 ← unescape .host (closeBracket :: colonPort)
          .ok (host1 ++ host2 ++ host3)
        | none => unescape .host host
  else unescape .host host

/-- `parseAuthority`. -/
def parseAuthority (authority : GoString) : Except ParseError (Option Userinfo × GoString) :=
  match splitLast authority atSign with
  | none => do
    let host ← parseHost authority
    .ok (none, host)
  | some (userinfo, rest) => do
    let host ← parseHost rest
    if colon ∈ userinfo then
      let (username, password) := split userinfo colon true
      let username ← unescape .userPassword username
      let password ← unescape .userPassword password
      .ok (some { username := username, password := some password }, host)
    else
      let username ← unescape .userPassword userinfo
      .ok (some { username := username }, host)

/-- A URL with its scheme and query read: the authority and the path. -/
def parseRest (url : Url) (rest : GoString) : Except ParseError Url :=
  if (str "//").isPrefixOf rest ∧ (url.scheme ≠ [] ∨ ¬ (str "///").isPrefixOf rest) then do
    let (authority, rest) := split (rest.drop 2) slash false
    let (user, host) ← parseAuthority authority
    let path ← unescape .path rest
    .ok { url with user := user, host := host, path := path }
  else do
    let path ← unescape .path rest
    .ok { url with path := path }

/-- The unexported `parse`, for URLs that are not from a request line. -/
def parseUnfragmented (rawurl : GoString) : Except ParseError Url :=
  if rawurl = str "*" then .ok { path := str "*" }
  else do
    let (scheme, rest) ← getScheme rawurl
    let url : Url := { scheme := toLower scheme }
    let (url, rest) :=
      if rest.getLast? = some question ∧ rest.count question = 1 then
        ({ url with forceQuery := true }, rest.dropLast)
      else
        let (rest, rawQuery) := split rest question true
        ({ url with rawQuery := rawQuery }, rest)
    if rest.head? ≠ some slash ∧ url.scheme ≠ [] then .ok { url with opaquePart := rest }
    else if rest.head? ≠ some slash ∧ colon ∈ rest.takeWhile (fun b => b != slash) then
      .error .colonInFirstSegment
    else parseRest url rest

/-- `Parse`. -/
def parse (rawurl : GoString) : Except ParseError Url := do
  let (u, frag) := split rawurl hashSign true
  let url ← parseUnfragmented u
  let fragment ← unescape .fragment frag
  .ok { url with fragment := fragment }

/-! ## Queries -/

/-- `QueryUnescape`, with `none` for its errors. -/
def queryUnescape : GoString → Option GoString
  | [] => some []
  | c :: s =>
    if c = percent then
      match s with
      | a :: b :: s =>
        match unhex a, unhex b with
        | some ha, some hb => (queryUnescape s).map (fun t => UInt8.ofNat (16 * ha + hb) :: t)
        | _, _ => none
      | _ => none
    else (queryUnescape s).map (fun t => (if c = 43 then 32 else c) :: t)

/-- `ParseQuery`: the pairs of the query that can be unescaped, in their order. -/
def parseQuery (query : GoString) : List (GoString × GoString) :=
  (query.splitOnP (fun c => c == 38 || c == 59)).filterMap (fun pair =>
    if pair = [] then none
    else
      let (key, value) := split pair 61 true
      (queryUnescape key).bind (fun key =>
        (queryUnescape value).map (fun value => (key, value))))

/-- `u.Query().Get(key)`. -/
def queryGet (u : Url) (key : GoString) : GoString :=
  (((parseQuery u.rawQuery).find? (fun pair => pair.1 == key)).map Prod.snd).getD []

/-! ## Plain URLs -/

theorem ok_bind {ε α β : Type} (a : α) (f : α → Except ε β) :
    ((Except.ok a : Except ε α) >>= f) = f a := rfl

variable {c : UInt8} {s : GoString}

theorem split_of_notMem (h : c ∉ s) (cutc : Bool) :
    split s c cutc = (s, []) := by
  have hall : ∀ b ∈ s, (b != c) = true := by
    intro b hb
    simp only [bne_iff_ne, ne_eq]
    rintro rfl
    exact h hb
  have htake : s.takeWhile (fun b => b != c) = s := List.takeWhile_eq_self_iff.mpr hall
  have hdrop : s.dropWhile (fun b => b != c) = [] := List.dropWhile_eq_nil_iff.mpr hall
  simp [split, htake, hdrop]

theorem split_append {rest : GoString} (h : c ∉ s) (hr : rest = [] ∨ rest.head? = some c) :
    split (s ++ rest) c false = (s, rest) := by
  have hall : ∀ b ∈ s, (b != c) = true := by
    intro b hb
    simp only [bne_iff_ne, ne_eq]
    rintro rfl
    exact h hb
  rcases hr with rfl | hr
  · rw [List.append_nil]
    exact split_of_notMem h false
  · cases rest with
    | nil => cases hr
    | cons a rest =>
      obtain rfl : a = c := by simpa using hr
      simp [split, List.takeWhile_append_of_pos hall, List.dropWhile_append_of_pos hall]

theorem splitLast_of_notMem (h : c ∉ s) : splitLast s c = none :=
  if_neg h

theorem splitLast_append (s : GoString) {rest : GoString} (h : c ∉ rest) :
    splitLast (s ++ c :: rest) c = some (s, rest) := by
  have hall : ∀ b ∈ rest.reverse, (b != c) = true := by
    intro b hb
    exact bne_iff_ne.mpr (fun hbc => h (hbc ▸ List.mem_reverse.mp hb))
  rw [splitLast, if_pos (by simp)]
  simp [List.takeWhile_append_of_pos hall, List.dropWhile_append_of_pos hall]

theorem unescape_cons (mode : Encoding) (hc : c ≠ percent) (s : GoString) :
    unescape mode (c :: s) =
      if (mode = .host ∨ mode = .zone) ∧ c < 128 ∧ ¬ hostByte c then .error (.invalidHost c)
      else (unescape mode s).map (fun t => c :: t) := by
  conv_lhs => unfold unescape
  rw [if_neg hc]

theorem unescape_plain {mode : Encoding} (h : percent ∉ s)
    (hhost : mode = .host ∨ mode = .zone → ∀ c ∈ s, c < 128 → hostByte c = true) :
    unescape mode s = .ok s := by
  induction s with
  | nil => rfl
  | cons c s ih =>
    rw [List.mem_cons, not_or] at h
    have hrest := ih h.2 (fun hm b hb => hhost hm b (List.mem_cons_of_mem c hb))
    have hbad : ¬ ((mode = .host ∨ mode = .zone) ∧ c < 128 ∧ ¬ hostByte c = true) := by
      rintro ⟨hm, hlt, hb⟩
      exact hb (hhost hm c (List.mem_cons_self ..) hlt)
    rw [unescape_cons mode (Ne.symm h.1), if_neg hbad, hrest]
    rfl

/-- The bytes after the first of a scheme. -/
def schemeByte (c : UInt8) : Bool := isLower c || isDigit c || (str "+-.").contains c

theorem getSchemeLoop_append (rawurl : GoString) {scheme : GoString}
    (h : ∀ c ∈ scheme, schemeByte c = true) (acc rest : GoString) :
    getSchemeLoop rawurl false acc (scheme ++ colon :: rest) = .ok (acc ++ scheme, rest) := by
  induction scheme generalizing acc with
  | nil =>
    rw [List.nil_append, getSchemeLoop, if_neg (by decide), if_neg (by decide), if_pos rfl,
      if_neg (by decide), List.append_nil]
  | cons c scheme ih =>
    have hc := h c (List.mem_cons_self ..)
    have hrest := ih (fun b hb => h b (List.mem_cons_of_mem c hb)) (acc ++ [c])
    rw [List.append_assoc, List.singleton_append] at hrest
    rw [List.cons_append, getSchemeLoop, hrest]
    simp only [schemeByte, Bool.or_eq_true] at hc
    simp only [Bool.or_eq_true, Bool.false_eq_true, if_false]
    split
    · rfl
    · next hletter =>
      rw [if_pos]
      tauto

/-- A scheme in lower case. -/
structure Scheme (scheme : GoString) : Prop where
  head : ∃ c rest, scheme = c :: rest ∧ isLower c = true
  bytes : ∀ c ∈ scheme, schemeByte c = true

theorem Scheme.getScheme {scheme : GoString} (hs : Scheme scheme) (rest : GoString) :
    getScheme (scheme ++ colon :: rest) = .ok (scheme, rest) := by
  obtain ⟨c, tail, rfl, hc⟩ := hs.head
  have htail := getSchemeLoop_append (c :: tail ++ colon :: rest)
    (fun b hb => hs.bytes b (List.mem_cons_of_mem c hb)) [c] rest
  rw [Url.getScheme, List.cons_append, getSchemeLoop, if_pos (by simp [hc])]
  exact htail

theorem schemeByte_not_upper (hc : schemeByte c = true) : isUpper c = false := by
  have hrest : str "+-." = [43, 45, 46] := by decide
  simp only [schemeByte, hrest, isLower, isDigit, isUpper, Bool.or_eq_true, Bool.and_eq_true,
    decide_eq_true_eq, List.contains_eq_mem, List.mem_cons, List.not_mem_nil, or_false,
    Bool.and_eq_false_iff, decide_eq_false_iff_not, UInt8.le_iff_toNat_le] at hc ⊢
  rcases hc with (hc | hc) | rfl | rfl | rfl
  · exact Or.inr (by have := hc.1; simp only [UInt8.toNat_ofNat] at *; omega)
  · exact Or.inl (by have := hc.2; simp only [UInt8.toNat_ofNat] at *; omega)
  · exact Or.inl (by decide)
  · exact Or.inl (by decide)
  · exact Or.inl (by decide)

theorem Scheme.toLower {scheme : GoString} (hs : Scheme scheme) : toLower scheme = scheme := by
  have hsame : ∀ c ∈ scheme, (if isUpper c then c + 32 else c) = c := by
    intro c hc
    rw [schemeByte_not_upper (hs.bytes c hc)]
    rfl
  rw [Url.toLower, List.map_congr_left hsame, List.map_id']

/-- The parts of a URL without user info, query, fragment and escapes. -/
structure Plain (scheme host path : GoString) : Prop where
  scheme : Scheme scheme
  host_ne : host ≠ []
  host_bracket : host.head? ≠ some openBracket
  host : ∀ c ∈ host, c < 128 → hostByte c = true
  path_head : path = [] ∨ path.head? = some slash
  path : ∀ c ∈ [hashSign, percent, question], c ∉ path

/-- The text of a plain URL. -/
def plainText (scheme host path : GoString) : GoString := scheme ++ str "://" ++ host ++ path

namespace Plain

variable {scheme host path : GoString} (hp : Plain scheme host path)
include hp

theorem notMem_host {c : UInt8} (hlt : c < 128) (hc : hostByte c = false) : c ∉ host := by
  intro hmem
  rw [hp.host c hmem hlt] at hc
  cases hc

theorem notMem_scheme {c : UInt8} (hc : schemeByte c = false) : c ∉ scheme := by
  intro hmem
  rw [hp.scheme.bytes c hmem] at hc
  cases hc

/-- A separator that none of the parts has. -/
theorem notMem_plainText {c : UInt8} (hlt : c < 128) (hh : hostByte c = false)
    (hs : schemeByte c = false) (hsep : c ∉ str "://") (hpath : c ∉ path) :
    c ∉ plainText scheme host path := by
  simp only [plainText, List.mem_append, not_or]
  exact ⟨⟨⟨hp.notMem_scheme hs, hsep⟩, hp.notMem_host hlt hh⟩, hpath⟩

theorem parseAuthority : parseAuthority host = .ok (none, host) := by
  have hat : atSign ∉ host := hp.notMem_host (by decide) (by decide)
  have hpercent : percent ∉ host := hp.notMem_host (by decide) (by decide)
  have hhost : parseHost host = .ok host := by
    rw [parseHost, if_neg hp.host_bracket, unescape_plain hpercent (fun _ => hp.host)]
  rw [Url.parseAuthority, splitLast_of_notMem hat]
  simp only [hhost, ok_bind]

end Plain

end Url

end Loggregator.Lib
