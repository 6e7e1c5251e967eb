import Loggregator.Doppler.SyslogDrains
import Loggregator.Lib.Json
import Loggregator.Lib.Path
import Loggregator.SyslogDrainBinder.DrainStore
import Mathlib.Algebra.Order.BigOperators.Group.List

/-!
# Decoding the nodes of syslog drains

`appServiceFromStoreNode` of `doppler/internal/store/app_service_store_watcher.go`, next to the
binder's code that writes the nodes. The binder formats the hostname and the URL into the JSON
text as they are. They are read back unchanged exactly when both are plain: without quotes,
backslashes and control characters, and valid UTF-8.

That nothing else can be read back is an argument by weight. The text that is written weighs no
more than the two strings with the two keys and their punctuation, so there is nothing to spare
for an escape or for another member.
-/

namespace Loggregator.Doppler

open Lib Json Utf8 SyslogDrainBinder

/-- `appServiceMetadata`. -/
structure AppServiceMetadata where
  hostname : GoString := []
  drainURL : GoString := []
  deriving DecidableEq

namespace AppServiceMetadata

/-- The names of the fields. -/
def hostnameField : GoString := str "hostname"
def drainURLField : GoString := str "drainURL"

/-- The field that a key names. -/
def field (key : GoString) : Option GoString := fieldFor [hostnameField, drainURLField] key

/-- Store a member of an object. `Unmarshal` skips keys that name no field, ignores null, and
fails for a value that is no string. -/
def store (m : AppServiceMetadata) (member : GoString × Json) : Option AppServiceMetadata :=
  match field member.1 with
  | none => some m
  | some name =>
    match member.2 with
    | .null => some m
    | .string s =>
      some (if name = hostnameField then { m with hostname := s } else { m with drainURL := s })
    | _ => none

/-- `json.Unmarshal`. -/
def unmarshal (data : GoString) : Option AppServiceMetadata :=
  (Json.parse data).bind (fun v =>
    match v with
    | .null => some {}
    | .object members => members.foldlM store {}
    | _ => none)

end AppServiceMetadata

/-- `appServiceFromStoreNode`. -/
def appServiceFromStoreNode (node : StoreNode) : Option AppService :=
  (AppServiceMetadata.unmarshal node.value).map (fun metadata =>
    { appId := Path.base (Path.dir node.key)
      url := metadata.drainURL
      hostname := metadata.hostname })

/-! ## The key -/

theorem hexDigit_ne_sep (n : Nat) (h : n < 16) : Path.sep ≠ hexDigit n := by
  interval_cases n <;> decide

theorem sep_notMem_hexEncode (bs : List UInt8) : Path.sep ∉ hexEncode bs := by
  intro hmem
  obtain ⟨b, -, hb⟩ := List.mem_flatMap.mp hmem
  have hlt := b.toNat_lt
  simp only [List.mem_cons, List.not_mem_nil, or_false] at hb
  rcases hb with hb | hb
  · exact hexDigit_ne_sep _ (by omega) hb
  · exact hexDigit_ne_sep _ (by omega) hb

/-- The directory of an application's nodes. -/
def appDir (appId : GoString) : GoString := str "/loggregator/v2/services/" ++ appId

/-- The elements of `adapterWatchDir`. -/
def watchDir : List GoString := [str "loggregator", str "v2", str "services"]

theorem element_watchDir : ∀ e ∈ watchDir, Path.Element e := by
  simp only [watchDir, List.forall_mem_cons, List.not_mem_nil, false_imp_iff, implies_true,
    and_true]
  exact ⟨⟨by decide, by decide, by decide, by decide⟩, ⟨by decide, by decide, by decide, by decide⟩,
    ⟨by decide, by decide, by decide, by decide⟩⟩

theorem appDir_eq (appId : GoString) :
    appDir appId = Path.absolute watchDir ++ Path.sep :: appId := by
  have hroot : str "/loggregator/v2/services/" = Path.absolute watchDir ++ [Path.sep] := by decide
  rw [appDir, hroot, List.append_assoc]
  rfl

variable {appId : GoString}

theorem base_appDir (happ : Path.Element appId) :
    Path.base (appDir appId) = appId := by
  rw [appDir_eq, Path.base_absolute _ happ]

theorem dir_drainKey (happ : Path.Element appId) (data : GoString) :
    Path.dir (drainKey appId data) = appDir appId := by
  have helems : ∀ e ∈ watchDir ++ [appId], Path.Element e := by
    intro e he
    rcases List.mem_append.mp he with he | he
    · exact element_watchDir e he
    · cases List.mem_singleton.mp he
      exact happ
  have hdir : appDir appId = Path.absolute (watchDir ++ [appId]) := by
    rw [appDir_eq, Path.absolute, Path.absolute, List.flatMap_append]
    simp
  have hkey : drainKey appId data =
      Path.absolute (watchDir ++ [appId]) ++ Path.sep :: hexEncode (Sha1.sum data) := by
    have hsep : str "/" = [Path.sep] := by decide
    rw [drainKey, ← appDir, hdir, hsep, List.append_assoc]
    rfl
  rw [hkey, Path.dir_absolute (by simp) helems (sep_notMem_hexEncode _), hdir]

/-! ## The value -/

section Value

/-- A member with a string as its value. -/
def stringMember (key : GoString) (t : GoString) : GoString :=
  quote :: (key ++ quote :: Json.colon :: quote :: t)

/-- The text is an object whose first member is the hostname. -/
theorem drainData_eq (h u : GoString) :
    drainData h u = openBrace :: stringMember (str "hostname") (h ++ quote :: comma ::
      stringMember (str "drainURL") (u ++ quote :: [closeBrace])) := by
  have h₁ : str "\x7b\"hostname\":\"" =
      openBrace :: quote :: (str "hostname" ++ quote :: Json.colon :: [quote]) := by decide
  have h₂ : str "\",\"drainURL\":\"" =
      quote :: comma :: quote :: (str "drainURL" ++ quote :: Json.colon :: [quote]) := by decide
  have h₃ : str "\"\x7d" = quote :: [closeBrace] := by decide
  rw [drainData, h₁, h₂, h₃]
  simp [stringMember]

theorem parseMember_string {key : GoString} (hkey : Plain key) (n : Nat) (t : GoString) :
    parseMember (parseValue (n + 1)) (stringMember key t) =
      (parseString t).map (fun (s, r) => ((key, .string s), r)) := by
  simp only [parseMember, stringMember, expect_self (c := quote) rfl,
    expect_self (c := Json.colon) rfl, parseString_plain hkey, Option.bind_some, parseValue_string,
    Option.map_map]
  rfl

theorem parseItems_first {key : GoString} (hkey : Plain key) (n k : Nat) (t : GoString) :
    parseItems (parseMember (parseValue (n + 1))) closeBrace (k + 1) (stringMember key t) =
      (parseString t).bind (fun (s, r) =>
        match expect closeBrace r with
        | some r => some ([(key, .string s)], r)
        | none => (expect comma r).bind (fun r =>
            (parseItems (parseMember (parseValue (n + 1))) closeBrace k r).map
              (fun (ms, r) => ((key, .string s) :: ms, r)))) := by
  rw [parseItems, parseMember_string hkey]
  cases parseString t <;> rfl

theorem plain_hostname : Plain (str "hostname") := plain_of_all (by decide)

theorem plain_drainURL : Plain (str "drainURL") := plain_of_all (by decide)

variable {h u : GoString}

/-- The text of the second member. -/
def drainURLMember (u : GoString) : GoString :=
  stringMember (str "drainURL") (u ++ quote :: [closeBrace])

theorem ascii_drainURLMember (u : GoString) : ascii (drainURLMember u) = ascii u + 14 := by
  have hkey : ascii (str "drainURL") = 8 := by decide
  simp only [drainURLMember, stringMember, ascii_append, ascii_nil, hkey,
    ascii_cons_of_lt (c := quote) (by decide), ascii_cons_of_lt (c := Json.colon) (by decide),
    ascii_cons_of_lt (c := closeBrace) (by decide)]
  omega

/-- The parser of the members. -/
def parseMembers (n k : Nat) : GoString → Option (List (GoString × Json) × GoString) :=
  parseItems (parseMember (parseValue (n + 1))) closeBrace k

/-- `Unmarshal` of a node's value stores the members in their order. -/
theorem unmarshal_drainData (h u : GoString) : ∃ n k,
    AppServiceMetadata.unmarshal (drainData h u) =
      (parseMembers n (k + 2)
        (stringMember (str "hostname") (h ++ quote :: comma :: drainURLMember u))).bind
          (fun (ms, r) =>
            if skipSpace r = [] then ms.foldlM AppServiceMetadata.store {} else none) := by
  have hdata : drainData h u =
      openBrace :: stringMember (str "hostname") (h ++ quote :: comma :: drainURLMember u) :=
    drainData_eq h u
  generalize htext :
    stringMember (str "hostname") (h ++ quote :: comma :: drainURLMember u) = text at hdata ⊢
  have hlen : text.length = (text.length - 2) + 2 := by
    rw [← htext, stringMember, List.length_cons, List.length_append, List.length_cons]
    omega
  have hclose : expect closeBrace text = none := by
    rw [← htext, stringMember]
    exact expect_ne rfl (by decide) _
  refine ⟨(drainData h u).length, text.length - 2, ?_⟩
  rw [AppServiceMetadata.unmarshal, parse_eq (n := (drainData h u).length + 2) (by omega), hdata,
    parseValue, skipSpace, List.dropWhile_cons_of_neg (by decide)]
  simp only [if_pos, parseList, hclose]
  rw [← hlen, parseMembers]
  cases parseItems (parseMember (parseValue ((openBrace :: text).length + 1))) closeBrace
      text.length text with
  | none => rfl
  | some p =>
    simp only [Option.map_some, Option.bind_some]
    split <;> rfl

/-- The members of a node's value with a plain hostname and a plain URL. -/
theorem unmarshal_plain (hh : Plain h) (hu : Plain u) :
    AppServiceMetadata.unmarshal (drainData h u) = some ⟨h, u⟩ := by
  obtain ⟨n, k, hdecode⟩ := unmarshal_drainData h u
  have hclose : expect closeBrace (comma :: drainURLMember u) = none :=
    expect_ne rfl (by decide) _
  rw [hdecode, parseMembers, parseItems_first plain_hostname, parseString_plain hh]
  simp only [Option.bind_some, hclose, expect_self (c := comma) rfl]
  rw [drainURLMember, parseItems_first plain_drainURL, parseString_plain hu]
  simp only [Option.bind_some, expect_self (c := closeBrace) rfl, Option.map_some]
  rfl

/-- A member is skipped or sets the field that its key names. -/
theorem store_cases {m m' : AppServiceMetadata} {member : GoString × Json}
    (hstore : m.store member = some m') :
    m' = m ∨ ∃ t, member.2 = .string t ∧
      ((AppServiceMetadata.field member.1 = some AppServiceMetadata.hostnameField ∧
          m' = { m with hostname := t }) ∨
        (AppServiceMetadata.field member.1 = some AppServiceMetadata.drainURLField ∧
          m' = { m with drainURL := t })) := by
  obtain ⟨key, v⟩ := member
  unfold AppServiceMetadata.store at hstore
  split at hstore
  · cases hstore
    exact .inl rfl
  · next name hname =>
    split at hstore
    · cases hstore
      exact .inl rfl
    · next t ht =>
      refine .inr ⟨t, ht, ?_⟩
      rcases List.mem_pair.mp (fieldFor_mem hname) with rfl | rfl
      · rw [if_pos rfl] at hstore
        cases hstore
        exact .inl ⟨hname, rfl⟩
      · rw [if_neg (by decide)] at hstore
        cases hstore
        exact .inr ⟨hname, rfl⟩
    · cases hstore

variable {ms : List (GoString × Json)}

/-- A field is what it was or what a member says. -/
theorem foldlM_store {m m' : AppServiceMetadata}
    (hfold : ms.foldlM AppServiceMetadata.store m = some m') :
    (m'.hostname = m.hostname ∨ ∃ key, (key, .string m'.hostname) ∈ ms ∧
        AppServiceMetadata.field key = some AppServiceMetadata.hostnameField) ∧
      (m'.drainURL = m.drainURL ∨ ∃ key, (key, .string m'.drainURL) ∈ ms ∧
        AppServiceMetadata.field key = some AppServiceMetadata.drainURLField) := by
  induction ms generalizing m with
  | nil =>
    cases hfold
    exact ⟨.inl rfl, .inl rfl⟩
  | cons member ms ih =>
    rw [List.foldlM_cons] at hfold
    obtain ⟨m₁, hstore, hfold⟩ := Option.bind_eq_some_iff.mp hfold
    obtain ⟨hhost, hdrain⟩ := ih hfold
    have htail : ∀ {t name : GoString}, (∃ key, (key, .string t) ∈ ms ∧
        AppServiceMetadata.field key = some name) → ∃ key, (key, .string t) ∈ member :: ms ∧
          AppServiceMetadata.field key = some name :=
      fun ⟨key, hmem, hkey⟩ => ⟨key, List.mem_cons_of_mem _ hmem, hkey⟩
    obtain ⟨key, v⟩ := member
    rcases store_cases hstore with rfl | ⟨t, ht, ⟨hkey, rfl⟩ | ⟨hkey, rfl⟩⟩
    · exact ⟨hhost.imp_right htail, hdrain.imp_right htail⟩
    · cases ht
      refine ⟨.inr ?_, hdrain.imp_right htail⟩
      rcases hhost with hhost | hhost
      · exact ⟨key, by rw [hhost]; exact List.mem_cons_self, hkey⟩
      · exact htail hhost
    · cases ht
      refine ⟨hhost.imp_right htail, .inr ?_⟩
      rcases hdrain with hdrain | hdrain
      · exact ⟨key, by rw [hdrain]; exact List.mem_cons_self, hkey⟩
      · exact htail hdrain

/-- A key that names the drain URL weighs as much as the name. -/
theorem ascii_of_drainURLField {key : GoString}
    (hkey : AppServiceMetadata.field key = some AppServiceMetadata.drainURLField) :
    ascii key = 8 := by
  rcases fieldFor_eq_some hkey with rfl | hfold
  · decide
  · rw [equalFold_ascii hfold (by decide)]
    decide

/-- What a member weighs with its separator. -/
def memberWeight (m : GoString × Json) : Nat := 3 + ascii m.1 + weight m.2 + 1

theorem parseMembers_weight {n k : Nat} {s r : GoString} (hms : parseMembers n k s = some (ms, r)) :
    (ms.map memberWeight).sum + ascii r ≤ ascii s :=
  (parseItems_consumes (by decide)
    (fun _ _ _ => parseMember_consumes (fun _ _ _ => parseValue_consumes)) hms).weighs

theorem memberWeight_drainURL {key : GoString}
    (hkey : AppServiceMetadata.field key = some AppServiceMetadata.drainURLField)
    (u : GoString) : memberWeight (key, .string u) = ascii u + 14 := by
  simp only [memberWeight, weight, ascii_of_drainURLField hkey]
  omega

/-- The first member is read, and then the end or the other members. -/
theorem parseMembers_first {key : GoString} (hkey : Plain key) {n k : Nat} {t r : GoString}
    (hms : parseMembers n (k + 1) (stringMember key t) = some (ms, r)) :
    ∃ s r₁ ms', parseString t = some (s, r₁) ∧ ms = (key, .string s) :: ms' ∧
      ((ms' = [] ∧ expect closeBrace r₁ = some r) ∨
        ∃ r₂, expect comma r₁ = some r₂ ∧ parseMembers n k r₂ = some (ms', r)) := by
  rw [parseMembers, parseItems_first hkey] at hms
  obtain ⟨⟨s, r₁⟩, hs, hms⟩ := Option.bind_eq_some_iff.mp hms
  simp only at hms
  split at hms
  · next r' hclose =>
    cases hms
    exact ⟨s, r₁, [], hs, rfl, .inl ⟨rfl, hclose⟩⟩
  · obtain ⟨r₂, hcomma, hms⟩ := Option.bind_eq_some_iff.mp hms
    obtain ⟨⟨ms', r'⟩, hrest, heq⟩ := Option.map_eq_some_iff.mp hms
    cases heq
    exact ⟨s, r₁, ms', hs, rfl, .inr ⟨r₂, hcomma, hrest⟩⟩

theorem add_le_sum_of_mem {α : Type} {l : List α} {x y : α} (w : α → Nat) (hx : x ∈ l)
    (hy : y ∈ l) (hne : x ≠ y) : w x + w y ≤ (l.map w).sum := by
  obtain ⟨l₁, l₂, rfl⟩ := List.append_of_mem hx
  have hy' : y ∈ l₁ ++ l₂ := by
    rcases List.mem_append.mp hy with hy | hy
    · exact List.mem_append_left _ hy
    · exact List.mem_append_right _ ((List.mem_cons.mp hy).resolve_left hne.symm)
  have hle := List.le_sum_of_mem (List.mem_map_of_mem (f := w) hy')
  simp only [List.map_append, List.map_cons, List.sum_append, List.sum_cons] at hle ⊢
  omega

/-- When the hostname and the URL are read back, there is no weight for an escape in the hostname
nor for another member that gives it. -/
theorem plain_hostname_of_read {s r₁ r₂ r : GoString} {n k : Nat}
    (hs : parseString (h ++ quote :: comma :: drainURLMember u) = some (s, r₁))
    (hcomma : expect comma r₁ = some r₂) (hms : parseMembers n k r₂ = some (ms, r))
    (hhost : h = s ∨ ∃ key, (key, .string h) ∈ ms ∧
      AppServiceMetadata.field key = some AppServiceMetadata.hostnameField)
    (hdrain : ∃ key, (key, .string u) ∈ ms ∧
      AppServiceMetadata.field key = some AppServiceMetadata.drainURLField) :
    Plain h ∧ r₂ = drainURLMember u := by
  have hweight := (parseString_consumes hs).weighs
  have hcommaWeight := (expect_consumes (by decide) hcomma).weighs
  have hsum := parseMembers_weight hms
  rw [ascii_append, ascii_cons_of_lt (by decide), ascii_cons_of_lt (by decide),
    ascii_drainURLMember] at hweight
  obtain ⟨key₂, hmem₂, hkey₂⟩ := hdrain
  have hurl := memberWeight_drainURL hkey₂ u
  have hle := List.le_sum_of_mem (List.mem_map_of_mem (f := memberWeight) hmem₂)
  have hsame : h = s := by
    refine hhost.resolve_right ?_
    rintro ⟨key₁, hmem₁, hkey₁⟩
    have hne : (key₁, Json.string h) ≠ (key₂, Json.string u) := by
      intro heq
      cases heq
      rw [hkey₁] at hkey₂
      exact absurd hkey₂ (by decide)
    have hboth := add_le_sum_of_mem memberWeight hmem₁ hmem₂ hne
    have hhostWeight : ascii h + 6 ≤ memberWeight (key₁, .string h) := by
      simp only [memberWeight, weight]
      omega
    omega
  subst hsame
  have hrest : ascii (comma :: drainURLMember u) ≤ ascii r₁ := by
    rw [ascii_cons_of_lt (by decide), ascii_drainURLMember]
    omega
  obtain ⟨hplain, rfl⟩ := parseString_inv hs hrest
  rw [expect_self rfl] at hcomma
  exact ⟨hplain, (Option.some.inj hcomma).symm⟩

/-- When the URL is read back, there is no weight for an escape in it nor for another member that
gives it. -/
theorem plain_drainURL_of_read {r : GoString} {n k : Nat}
    (hms : parseMembers n (k + 1) (drainURLMember u) = some (ms, r))
    (hdrain : ∃ key, (key, .string u) ∈ ms ∧
      AppServiceMetadata.field key = some AppServiceMetadata.drainURLField) : Plain u := by
  have hsum := parseMembers_weight hms
  rw [ascii_drainURLMember] at hsum
  obtain ⟨s, r₁, ms', hs, rfl, hend⟩ := parseMembers_first plain_drainURL hms
  obtain ⟨key, hmem, hkey⟩ := hdrain
  have hname : AppServiceMetadata.field (str "drainURL") =
      some AppServiceMetadata.drainURLField := by decide
  have hfirst := memberWeight_drainURL hname s
  have hsame : s = u := by
    rcases List.mem_cons.mp hmem with heq | hmem
    · cases heq
      rfl
    · have hle := List.le_sum_of_mem (List.mem_map_of_mem (f := memberWeight) hmem)
      have := memberWeight_drainURL hkey u
      rw [List.map_cons, List.sum_cons] at hsum
      omega
  subst hsame
  have hrest : ascii [closeBrace] ≤ ascii r₁ := by
    rw [ascii_cons_of_lt (by decide), ascii_nil]
    rcases hend with ⟨-, hclose⟩ | ⟨r₂, hcomma, -⟩
    · have := (expect_consumes (by decide) hclose).weighs
      omega
    · have := (expect_consumes (by decide) hcomma).weighs
      omega
  exact (parseString_inv hs hrest).1

theorem plain_of_unmarshal (hne : u ≠ [])
    (hread : AppServiceMetadata.unmarshal (drainData h u) = some ⟨h, u⟩) : Plain h ∧ Plain u := by
  obtain ⟨n, k, hdecode⟩ := unmarshal_drainData h u
  rw [hdecode] at hread
  obtain ⟨⟨ms, r⟩, hms, hfold⟩ := Option.bind_eq_some_iff.mp hread
  simp only at hfold
  split at hfold
  · obtain ⟨s, r₁, ms', hs, rfl, hend⟩ := parseMembers_first plain_hostname hms
    have hfirst : AppServiceMetadata.store {} (str "hostname", .string s) = some ⟨s, []⟩ := rfl
    rw [List.foldlM_cons, hfirst] at hfold
    obtain ⟨hhost, hdrain⟩ := foldlM_store hfold
    replace hdrain := hdrain.resolve_left hne
    rcases hend with ⟨rfl, -⟩ | ⟨r₂, hcomma, hrest⟩
    · obtain ⟨key, hmem, -⟩ := hdrain
      cases hmem
    · obtain ⟨hplain, rfl⟩ := plain_hostname_of_read hs hcomma hrest hhost hdrain
      exact ⟨hplain, plain_drainURL_of_read hrest hdrain⟩
  · cases hfold

end Value

/-! ## The node -/

theorem appServiceFromStoreNode_drainNode (happ : Path.Element appId) (ttl : UInt64)
    (hostname drainURL : GoString) :
    appServiceFromStoreNode (drainNode ttl appId hostname drainURL) =
      (AppServiceMetadata.unmarshal (drainData hostname drainURL)).map (fun metadata =>
        { appId := appId, url := metadata.drainURL, hostname := metadata.hostname }) := by
  rw [appServiceFromStoreNode, drainNode, dir_drainKey happ, base_appDir happ]

/-- For every application id that is a path element and every drain URL that `Filter` lets
through and that is not blank, the node that `updateAppDrains` writes is decoded to the
application, the URL and the hostname exactly when the hostname and the URL are plain. -/
theorem drainNode_decodes_iff (bindings : AllSyslogDrainBindings) (appId : GoString)
    (binding : SyslogDrainBinding) (hbinding : (filter bindings).lookup appId = some binding)
    (happ : Path.Element appId) (ttl : UInt64) {drainURL : GoString}
    (hurl : drainURL ∈ binding.drainURLs) (hblank : trimSpace drainURL ≠ []) :
    keepsDrain drainURL = true ∧
      drainNode ttl appId binding.hostname drainURL ∈ updateAppDrains ttl appId binding ∧
      (appServiceFromStoreNode (drainNode ttl appId binding.hostname drainURL) =
          some { appId := appId, url := drainURL, hostname := binding.hostname } ↔
        Plain binding.hostname ∧ Plain drainURL) := by
  obtain ⟨b, -, -, hurls⟩ := lookup_filter hbinding
  have hkeeps : keepsDrain drainURL = true := (List.mem_filter.mp (hurls ▸ hurl)).2
  refine ⟨hkeeps, mem_updateAppDrains hurl hblank, ?_⟩
  rw [appServiceFromStoreNode_drainNode happ]
  constructor
  · intro hread
    obtain ⟨⟨hostname, url⟩, hmeta, heq⟩ := Option.map_eq_some_iff.mp hread
    cases heq
    refine plain_of_unmarshal ?_ hmeta
    rintro rfl
    exact hblank rfl
  · rintro ⟨hhost, hdrain⟩
    rw [unmarshal_plain hhost hdrain, Option.map_some]

/-- The bindings of one application with one drain. -/
def oneDrain (drainURL : GoString) : AllSyslogDrainBindings :=
  (∅ : Dict GoString SyslogDrainBinding).insert (str "app") ⟨str "host", [drainURL]⟩

theorem plainURL_decoded :
    appServiceFromStoreNode (drainNode 1800 (str "app") (str "host") (str "syslog://drain")) =
      some { appId := str "app", url := str "syslog://drain", hostname := str "host" } :=
  (drainNode_decodes_iff (oneDrain (str "syslog://drain")) (str "app")
    ⟨str "host", [str "syslog://drain"]⟩ (by decide)
    ⟨by decide, by decide, by decide, by decide⟩ 1800 List.mem_cons_self (by decide)).2.2.mpr
    ⟨plain_of_all (by decide), plain_of_all (by decide)⟩

/-- `Filter` lets a URL with a quote in its path through, and its node is not decoded at all. -/
theorem quotedURL_not_decoded :
    (filter (oneDrain (str "syslog://drain/\""))).lookup (str "app") =
        some ⟨str "host", [str "syslog://drain/\""]⟩ ∧
      Path.Element (str "app") ∧ trimSpace (str "syslog://drain/\"") ≠ [] ∧
      drainNode 1800 (str "app") (str "host") (str "syslog://drain/\"") ∈
        updateAppDrains 1800 (str "app") ⟨str "host", [str "syslog://drain/\""]⟩ ∧
      appServiceFromStoreNode
        (drainNode 1800 (str "app") (str "host") (str "syslog://drain/\"")) = none := by
  refine ⟨by decide, ⟨by decide, by decide, by decide, by decide⟩, by decide,
    mem_updateAppDrains List.mem_cons_self (by decide), ?_⟩
  have hread : AppServiceMetadata.unmarshal (drainData (str "host") (str "syslog://drain/\"")) =
      none := by decide
  rw [appServiceFromStoreNode, drainNode, hread, Option.map_none]

end Loggregator.Doppler
