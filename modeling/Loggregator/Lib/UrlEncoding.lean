import Loggregator.Lib.Transition
import Loggregator.Lib.Url

/-!
# Escapes in URLs and forms

`QueryEscape` with its round trip through `ParseQuery`, and what `Parse` makes of a plain URL to
which any text has been appended: the text is cut at the first `#` and the first `?`, and only
what stands before them reaches the path, with its escapes decoded.
-/

namespace Loggregator.Lib.Url

/-! ## Forms -/

/-- The bytes `QueryEscape` leaves alone: `!shouldEscape(c, encodeQueryComponent)`. -/
def unreserved (c : UInt8) : Bool :=
  isLower c || isUpper c || isDigit c || (str "-_.~").contains c

/-- `"0123456789ABCDEF"[n]`. -/
def upperHexDigit (n : Nat) : UInt8 := if n < 10 then UInt8.ofNat (48 + n) else UInt8.ofNat (55 + n)

/-- One byte of `QueryEscape`. -/
def queryEscapeByte (c : UInt8) : GoString :=
  if c = 32 then [43]
  else if unreserved c then [c]
  else [percent, upperHexDigit (c.toNat / 16), upperHexDigit (c.toNat % 16)]

/-- `QueryEscape`. -/
def queryEscape (s : GoString) : GoString := s.flatMap queryEscapeByte

/-- `Values.Encode` of one key with one value. -/
def encodeForm (key value : GoString) : GoString :=
  queryEscape key ++ str "=" ++ queryEscape value

theorem unhex_upperHexDigit {n : Nat} (h : n < 16) : unhex (upperHexDigit n) = some n := by
  interval_cases n <;> decide

variable {c : UInt8} {s : GoString} {mode : Encoding}

theorem unreserved_ne {d : UInt8} (hc : unreserved c = true) (hd : unreserved d = false) :
    c ≠ d := by
  rintro rfl
  rw [hc] at hd
  cases hd

theorem queryUnescape_cons (hc : c ≠ percent) (s : GoString) :
    queryUnescape (c :: s) =
      (queryUnescape s).map (fun t => (if c = 43 then 32 else c) :: t) := by
  conv_lhs => unfold queryUnescape
  rw [if_neg hc]

theorem queryUnescape_queryEscapeByte (c : UInt8) (s : GoString) :
    queryUnescape (queryEscapeByte c ++ s) = (queryUnescape s).map (fun t => c :: t) := by
  rw [queryEscapeByte]
  split
  · next hspace =>
    rw [List.singleton_append, queryUnescape_cons (by decide), hspace]
    rfl
  · split
    · next hfree =>
      have hpercent : c ≠ percent := unreserved_ne hfree (by decide)
      have hplus : c ≠ 43 := unreserved_ne hfree (by decide)
      rw [List.singleton_append, queryUnescape_cons hpercent, if_neg hplus]
    · have hc : c.toNat < 256 := c.toNat_lt
      have hhi := unhex_upperHexDigit (n := c.toNat / 16) (by omega)
      have hlo := unhex_upperHexDigit (n := c.toNat % 16) (by omega)
      have hval : 16 * (c.toNat / 16) + c.toNat % 16 = c.toNat := by omega
      simp only [List.cons_append, List.nil_append, queryUnescape, if_true, hhi, hlo, hval,
        UInt8.ofNat_toNat]

/-- What `QueryEscape` writes is read back. -/
theorem queryUnescape_queryEscape (s : GoString) : queryUnescape (queryEscape s) = some s := by
  induction s with
  | nil => rfl
  | cons c s ih =>
    rw [queryEscape, List.flatMap_cons, queryUnescape_queryEscapeByte]
    rw [queryEscape] at ih
    rw [ih]
    rfl

/-- The bytes of an escaped text. -/
theorem mem_queryEscape (h : c ∈ queryEscape s) :
    c = 43 ∨ c = percent ∨ unreserved c = true := by
  obtain ⟨b, -, hb⟩ := List.mem_flatMap.mp h
  have hdigit : ∀ n < 16, unreserved (upperHexDigit n) = true := by
    intro n hn
    interval_cases n <;> decide
  have hlt : b.toNat < 256 := b.toNat_lt
  rw [queryEscapeByte] at hb
  split at hb
  · exact Or.inl (List.mem_singleton.mp hb)
  · split at hb
    · next hfree =>
      rw [List.mem_singleton.mp hb]
      exact Or.inr (Or.inr hfree)
    · simp only [List.mem_cons, List.not_mem_nil, or_false] at hb
      rcases hb with rfl | rfl | rfl
      · exact Or.inr (Or.inl rfl)
      · exact Or.inr (Or.inr (hdigit _ (by omega)))
      · exact Or.inr (Or.inr (hdigit _ (by omega)))

theorem notMem_queryEscape (hplus : c ≠ 43) (hpercent : c ≠ percent) (hc : unreserved c = false)
    (s : GoString) : c ∉ queryEscape s := by
  intro hmem
  rcases mem_queryEscape hmem with h | h | h
  · exact hplus h
  · exact hpercent h
  · rw [h] at hc
    cases hc

theorem split_append_cons (h : c ∉ s) (rest : GoString) :
    split (s ++ c :: rest) c true = (s, rest) := by
  have hcut : split (s ++ c :: rest) c false = (s, c :: rest) := split_append h (Or.inr rfl)
  simp only [split, Bool.false_eq_true, if_false, if_true, Prod.mk.injEq] at hcut ⊢
  rw [hcut.1, hcut.2]
  exact ⟨rfl, rfl⟩

/-- A form of one key and one value is read back as it was. -/
theorem parseQuery_encodeForm (key value : GoString) :
    parseQuery (encodeForm key value) = [(key, value)] := by
  have hequals : str "=" = [61] := by decide
  have hsep : ∀ c ∈ encodeForm key value, (c == 38 || c == 59) = false := by
    intro c hc
    rw [encodeForm, hequals, List.append_assoc, List.mem_append, List.mem_append,
      List.mem_singleton] at hc
    rw [← Bool.not_eq_true, Bool.or_eq_true, beq_iff_eq, beq_iff_eq]
    rintro (rfl | rfl) <;> rcases hc with hc | hc | hc <;>
      first
        | exact absurd hc (by decide)
        | exact notMem_queryEscape (by decide) (by decide) (by decide) _ hc
  have hwhole : (encodeForm key value).splitOnP (fun c => c == 38 || c == 59) =
      [encodeForm key value] := List.splitOnP_eq_singleton hsep
  have hne : encodeForm key value ≠ [] := by simp [encodeForm, hequals]
  have hsplit : split (encodeForm key value) 61 true = (queryEscape key, queryEscape value) := by
    rw [encodeForm, hequals, List.append_assoc, List.singleton_append]
    exact split_append_cons (notMem_queryEscape (by decide) (by decide) (by decide) key) _
  rw [parseQuery, hwhole]
  simp only [List.filterMap_cons, List.filterMap_nil, if_neg hne, hsplit,
    queryUnescape_queryEscape, Option.bind_some, Option.map_some]

/-! ## Texts appended to a plain URL -/

theorem ne_percent_of_unhex {n : Nat} (h : unhex c = some n) : c ≠ percent := by
  rintro rfl
  cases (show unhex percent = none by decide).symm.trans h

theorem unescape_append (hmode : mode ≠ .host ∧ mode ≠ .zone) (h : percent ∉ s) (t : GoString) :
    unescape mode (s ++ t) = (unescape mode t).map (fun r => s ++ r) := by
  induction s with
  | nil =>
    rw [List.nil_append]
    cases unescape mode t <;> rfl
  | cons c s ih =>
    rw [List.mem_cons, not_or] at h
    rw [List.cons_append, unescape_cons mode (Ne.symm h.1), if_neg (by simp [hmode]), ih h.2]
    cases unescape mode t <;> rfl

/-- The text has a `%` that two hexadecimal digits do not follow. -/
def BadEscape (s : GoString) : Prop :=
  ∃ front rest, s = front ++ percent :: rest ∧
    ¬ ∃ a b tail, rest = a :: b :: tail ∧ (unhex a).isSome ∧ (unhex b).isSome

theorem badEscape_cons_iff (hc : c ≠ percent) :
    BadEscape (c :: s) ↔ BadEscape s := by
  constructor
  · rintro ⟨front, rest, heq, hbad⟩
    cases front with
    | nil => exact absurd (List.cons.inj heq).1 hc
    | cons b front =>
      obtain ⟨rfl, rfl⟩ := List.cons.inj heq
      exact ⟨front, rest, rfl, hbad⟩
  · rintro ⟨front, rest, rfl, hbad⟩
    exact ⟨c :: front, rest, rfl, hbad⟩

theorem badEscape_escape_iff {a b : UInt8} {ha hb : Nat} (haeq : unhex a = some ha)
    (hbeq : unhex b = some hb) :
    BadEscape (percent :: a :: b :: s) ↔ BadEscape s := by
  rw [← badEscape_cons_iff (ne_percent_of_unhex hbeq) (s := s),
    ← badEscape_cons_iff (ne_percent_of_unhex haeq) (s := b :: s)]
  constructor
  · rintro ⟨front, rest, heq, hbad⟩
    cases front with
    | nil =>
      obtain ⟨-, rfl⟩ := List.cons.inj heq
      exact absurd ⟨a, b, s, rfl, by simp [haeq], by simp [hbeq]⟩ hbad
    | cons c front => exact ⟨front, rest, (List.cons.inj heq).2, hbad⟩
  · rintro ⟨front, rest, heq, hbad⟩
    exact ⟨percent :: front, rest, by rw [heq]; rfl, hbad⟩

theorem error_map_iff {ε α β : Type} {x : Except ε α} {f : α → β} :
    (∃ e, x.map f = .error e) ↔ ∃ e, x = .error e := by
  cases x <;> simp [Except.map]

/-- Outside of hosts, `unescape` fails at bad escapes only. -/
theorem unescape_error_iff (hmode : mode ≠ .host ∧ mode ≠ .zone) (s : GoString) :
    (∃ e, unescape mode s = .error e) ↔ BadEscape s := by
  fun_induction unescape mode s with
  | case1 => simp [BadEscape]
  | case2 | case3 => simp_all
  | case4 a b s ha hb hbeq haeq =>
    rename_i ih
    rw [error_map_iff, ih, badEscape_escape_iff haeq hbeq]
  | case5 a b s hbad =>
    refine iff_of_true ⟨_, rfl⟩ ⟨[], a :: b :: s, rfl, ?_⟩
    rintro ⟨_, _, _, heq, hha, hhb⟩
    cases heq
    obtain ⟨ha, haeq⟩ := Option.isSome_iff_exists.mp hha
    obtain ⟨hb, hbeq⟩ := Option.isSome_iff_exists.mp hhb
    exact hbad ha hb haeq hbeq
  | case6 s hshort =>
    refine iff_of_true ⟨_, rfl⟩ ⟨[], s, rfl, ?_⟩
    rintro ⟨a, b, tail, heq, -⟩
    exact hshort a b tail heq
  | case7 => simp_all
  | case8 c s hc _ ih => rw [error_map_iff, ih, badEscape_cons_iff hc]

/-- Every escape takes two bytes off the text. -/
theorem length_unescape {r : GoString} (h : unescape mode s = .ok r) :
    r.length + 2 * s.count percent = s.length := by
  fun_induction unescape mode s generalizing r with
  | case1 =>
    cases h
    rfl
  | case2 | case3 => cases h
  | case4 a b s ha hb hbeq haeq =>
    rename_i ih
    obtain ⟨t, ht, rfl⟩ := ok_of_map h
    have hlen := ih ht
    simp only [List.count_cons, List.length_cons, beq_iff_eq, if_true,
      if_neg (ne_percent_of_unhex haeq), if_neg (ne_percent_of_unhex hbeq)]
    omega
  | case5 | case6 | case7 => cases h
  | case8 c s hc hbad ih =>
    obtain ⟨t, ht, rfl⟩ := ok_of_map h
    have hlen := ih ht
    simp only [List.count_cons, List.length_cons, beq_iff_eq, if_neg hc]
    omega

theorem split_append_left (h : c ∉ s) (rest : GoString) (cutc : Bool) :
    split (s ++ rest) c cutc = (s ++ (split rest c cutc).1, (split rest c cutc).2) := by
  have hall : ∀ b ∈ s, (b != c) = true := by
    intro b hb
    exact bne_iff_ne.mpr (fun hbc => h (hbc ▸ hb))
  simp only [split, List.takeWhile_append_of_pos hall, List.dropWhile_append_of_pos hall]

/-- The text before the first `#`, cut at the first `?`: the part that becomes the path. -/
def pathPart (s : GoString) : GoString :=
  (split (split s hashSign true).1 question true).1

/-- The text after the first `#`. -/
def fragmentPart (s : GoString) : GoString := (split s hashSign true).2

/-- `ForceQuery` and `RawQuery` of a text. -/
def queryPart (s : GoString) : Bool × GoString :=
  let u := (split s hashSign true).1
  if u.getLast? = some question ∧ u.count question = 1 then (true, [])
  else (false, (split u question true).2)

/-- A text with one `?`, which is its last byte, is cut there. -/
theorem split_question_of_last {u : GoString} (hlast : u.getLast? = some question)
    (hcount : u.count question = 1) : (split u question true).1 = u.dropLast := by
  obtain ⟨front, rfl⟩ : ∃ front, u = front ++ [question] :=
    ⟨u.dropLast, (List.dropLast_append_getLast? question hlast).symm⟩
  have hfront : question ∉ front := by
    rw [List.count_append, List.count_singleton_self] at hcount
    exact List.count_eq_zero.mp (by omega)
  rw [split_append_cons hfront, List.dropLast_concat]

namespace Plain

variable {scheme host path : GoString} (hp : Plain scheme host path)
include hp

theorem parseRest_append (hroot : path.head? = some slash) (url : Url) (hs : url.scheme ≠ [])
    (t : GoString) :
    Url.parseRest url (str "//" ++ host ++ path ++ t) = (do
      let t ← unescape .path t
      .ok { url with user := none, host := host, path := path ++ t }) := by
  have hslash : slash ∉ host := hp.notMem_host (by decide) (by decide)
  have hpercent : percent ∉ path := hp.path percent (by decide)
  have hlead : (str "//").isPrefixOf (str "//" ++ host ++ path ++ t) = true := by
    rw [List.isPrefixOf_iff_prefix, List.append_assoc, List.append_assoc]
    exact List.prefix_append _ _
  have hdrop : (str "//" ++ host ++ path ++ t).drop 2 = host ++ (path ++ t) := by
    rw [List.append_assoc, List.append_assoc]
    rfl
  have hhead : (path ++ t).head? = some slash := by
    rw [List.head?_append, hroot]
    rfl
  have hpath : unescape .path (path ++ t) = (unescape .path t).map (fun r => path ++ r) :=
    unescape_append (by decide) hpercent t
  rw [Url.parseRest, if_pos ⟨hlead, Or.inl hs⟩, hdrop, split_append hslash (Or.inr hhead)]
  simp only [hp.parseAuthority, ok_bind, hpath]
  cases unescape .path t <;> rfl

/-- A text after a plain URL that has a path: what is parsed of it. -/
theorem parse_append (hroot : path.head? = some slash) (target : GoString) :
    Url.parse (plainText scheme host path ++ target) = (do
      let t ← unescape .path (pathPart target)
      let fragment ← unescape .fragment (fragmentPart target)
      .ok { scheme := scheme, host := host, path := path ++ t,
            forceQuery := (queryPart target).1, rawQuery := (queryPart target).2,
            fragment := fragment }) := by
  have hfree : ∀ c ∈ [hashSign, question], c ∉ plainText scheme host path := by
    intro c hc
    have hcases : c = hashSign ∨ c = question := by simpa using hc
    rcases hcases with rfl | rfl <;>
      exact hp.notMem_plainText (by decide) (by decide) (by decide) (by decide)
        (hp.path _ (by decide))
  have hne : scheme ≠ [] := by
    obtain ⟨c, rest, rfl, -⟩ := hp.scheme.head
    simp
  have htext : plainText scheme host path = scheme ++ colon :: (str "//" ++ host ++ path) := by
    have hsep : str "://" = colon :: str "//" := by decide
    simp [plainText, hsep]
  set u := (split target hashSign true).1 with hu
  set lead := str "//" ++ host ++ path with hlead
  have hrest : question ∉ lead := by
    have hq := hfree question (by decide)
    rw [htext] at hq
    simp only [List.mem_append, List.mem_cons, not_or] at hq
    exact hq.2.2
  have hstar : plainText scheme host path ++ u ≠ str "*" := by
    intro heq
    have hcolon : colon ∈ plainText scheme host path ++ u := by
      rw [htext]
      simp
    rw [heq] at hcolon
    exact absurd hcolon (by decide)
  -- the last byte and the count of `?` are those of the text that was appended
  have hcount : (lead ++ u).count question = u.count question := by
    rw [List.count_append, List.count_eq_zero.mpr hrest, Nat.zero_add]
  have hlast : (lead ++ u).getLast? = some question ↔ u.getLast? = some question := by
    rw [List.getLast?_append]
    cases hlu : u.getLast? with
    | some c => rfl
    | none =>
      rw [Option.none_or]
      constructor
      · intro h
        exact absurd (List.mem_of_getLast? h) hrest
      · intro h
        cases h
  have hhead : ∀ t, (lead ++ t).head? = some slash := by
    intro t
    rw [hlead, List.append_assoc, List.append_assoc]
    rfl
  rw [Url.parse, split_append_left (hfree hashSign (by decide))]
  simp only [← hu, parseUnfragmented, if_neg hstar]
  rw [htext, List.append_assoc, List.cons_append, hp.scheme.getScheme]
  simp only [ok_bind, hp.scheme.toLower, hcount, hlast, split_append_left hrest]
  by_cases hforce : u.getLast? = some question ∧ u.count question = 1
  · have hdrop : (lead ++ u).dropLast = lead ++ pathPart target := by
      have hune : u ≠ [] := by
        rintro h
        rw [h] at hforce
        cases hforce.1
      rw [List.dropLast_append_of_ne_nil hune, pathPart, ← hu,
        split_question_of_last hforce.1 hforce.2]
    simp only [if_pos hforce, hdrop, hhead, ne_eq, not_true_eq_false, false_and, if_false]
    rw [hlead, hp.parseRest_append hroot _ hne]
    simp only [queryPart, ← hu, if_pos hforce]
    cases unescape .path (pathPart target) <;> rfl
  · simp only [if_neg hforce, hhead, ne_eq, not_true_eq_false, false_and, if_false]
    rw [hlead, hp.parseRest_append hroot _ hne]
    simp only [queryPart, ← hu, if_neg hforce]
    rw [show (split u question true).1 = pathPart target from rfl]
    cases unescape .path (pathPart target) <;> rfl

/-- The text after a plain URL makes it unreadable if there is a bad escape outside of the query. -/
theorem parse_append_error_iff (hroot : path.head? = some slash) (target : GoString) :
    (∃ e, Url.parse (plainText scheme host path ++ target) = .error e) ↔
      BadEscape (pathPart target) ∨ BadEscape (fragmentPart target) := by
  have hpath : (∃ e, unescape .path (pathPart target) = .error e) ↔
      BadEscape (pathPart target) := unescape_error_iff (by decide) _
  have hfragment : (∃ e, unescape .fragment (fragmentPart target) = .error e) ↔
      BadEscape (fragmentPart target) := unescape_error_iff (by decide) _
  rw [hp.parse_append hroot, ← hpath, ← hfragment]
  cases unescape .path (pathPart target) with
  | error e => simp [Bind.bind, Except.bind]
  | ok t =>
    cases unescape .fragment (fragmentPart target) <;> simp [Bind.bind, Except.bind]

theorem head_append {more : GoString} (hhead : more.head? = some slash) :
    (path ++ more).head? = some slash := by
  rcases hp.path_head with rfl | h
  · exact hhead
  · rw [List.head?_append, h]
    rfl

/-- A plain URL with more elements in its path. -/
theorem append (more : GoString) (hhead : more.head? = some slash)
    (hmore : more.all (fun c => !([hashSign, percent, question].contains c)) = true) :
    Plain scheme host (path ++ more) :=
  { hp with
    path_head := Or.inr (hp.head_append hhead)
    path := by
      intro c hc hmem
      rcases List.mem_append.mp hmem with h | h
      · exact hp.path c hc h
      · have hfree := List.all_eq_true.mp hmore c h
        simp only [List.contains_iff_mem.mpr hc, Bool.not_true] at hfree
        cases hfree }

end Plain

theorem length_pathPart_le (s : GoString) : (pathPart s).length ≤ s.length := by
  simp only [pathPart, split]
  exact (List.takeWhile_prefix _).length_le.trans (List.takeWhile_prefix _).length_le

/-- The part that becomes the path is the whole text if it has no `#` and no `?`. -/
theorem pathPart_eq_self_iff :
    pathPart s = s ↔ hashSign ∉ s ∧ question ∉ s := by
  constructor
  · intro h
    have hu : (split s hashSign true).1 = s := by
      apply (List.takeWhile_prefix _).eq_of_length_le
      conv_lhs => rw [← h]
      exact (List.takeWhile_prefix _).length_le
    have hq : (split s question true).1 = s := by
      rw [pathPart, hu] at h
      exact h
    simp only [split, List.takeWhile_eq_self_iff, bne_iff_ne] at hu hq
    exact ⟨fun hmem => hu _ hmem rfl, fun hmem => hq _ hmem rfl⟩
  · rintro ⟨hhash, hquestion⟩
    rw [pathPart, split_of_notMem hhash, split_of_notMem hquestion]

/-- Decoding the part that becomes the path gives the text back only if nothing in it is special
in a URL. -/
theorem unescape_pathPart_iff :
    unescape .path (pathPart s) = .ok s ↔ ∀ c ∈ [hashSign, question, percent], c ∉ s := by
  simp only [List.forall_mem_cons, List.not_mem_nil, false_implies, implies_true, and_true]
  constructor
  · intro h
    have hlen := length_unescape h
    have hle := length_pathPart_le s
    have hself : pathPart s = s := by
      apply List.IsPrefix.eq_of_length_le
      · exact (List.takeWhile_prefix _).trans (List.takeWhile_prefix _)
      · omega
    rw [hself] at hlen
    obtain ⟨hhash, hquestion⟩ := pathPart_eq_self_iff.mp hself
    exact ⟨hhash, hquestion, List.count_eq_zero.mp (by omega)⟩
  · rintro ⟨hhash, hquestion, hpercent⟩
    rw [pathPart_eq_self_iff.mpr ⟨hhash, hquestion⟩]
    exact unescape_plain hpercent (by simp)

end Loggregator.Lib.Url
