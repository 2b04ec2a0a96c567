/-
What nmcli prints is read without loss, but for the fields in which the scan
and the details of a profile see the end of a line.
-/
import CybexOS.Network.NmcliLines

namespace CybexOS

namespace Network

namespace Nmcli

open Displays.Py (isSpace strip)
open PyLines (isBreak pieces)

/-- A field that can stand in one line. -/
def OneLine (text : Text) : Prop := LF ∉ text ∧ 13 ∉ text

instance (text : Text) : Decidable (OneLine text) := inferInstanceAs (Decidable (_ ∧ _))

/-! ### Lists of profiles -/

section

variable {key value : Text} {record : List (Text × Text)} {r : Reading}

theorem fieldLine_terse (hkey : key ≠ []) : fieldLine (terse [key, value]) = .ok (key, value) := by
  rw [fieldLine, splitEscaped_terse (List.cons_ne_nil _ _)]
  simp [bind, Except.bind, pure, Except.pure, hkey, List.intercalate]

theorem splitOn_lines {lines : List Text} (h : ∀ line ∈ lines, LF ∉ line) :
    (lines.flatMap (· ++ [LF])).splitOn LF = lines ++ [[]] := by
  induction lines with
  | nil => rfl
  | cons line lines ih =>
      have hline : line.splitOn LF = [line] := List.splitOnP_eq_singleton fun c hc =>
        beq_eq_false_iff_ne.mpr fun heq => h line List.mem_cons_self (heq ▸ hc)
      rw [List.flatMap_cons, List.append_assoc, List.singleton_append]
      refine (List.splitOnP_append_cons (p := (· == LF)) line _ (beq_self_eq_true LF)).trans ?_
      have hrest := ih fun other hother => h other (List.mem_cons_of_mem _ hother)
      exact (congrArg₂ (· ++ ·) hline hrest : _ = [line] ++ (lines ++ [[]]))

/-- The values of each key of a record, in order. -/
def grouped (current : Fields) (record : List (Text × Text)) : Fields :=
  record.foldl (fun current field =>
    Dict.set current field.1 ((current.lookup field.1).getD [] ++ [field.2])) current

theorem grouped_lookup (current : Fields) (record : List (Text × Text)) (key : Text) :
    ((grouped current record).lookup key).getD [] =
      (current.lookup key).getD [] ++ (record.filter (·.1 = key)).map Prod.snd := by
  induction record generalizing current with
  | nil => simp [grouped]
  | cons field record ih =>
      change ((grouped (Dict.set current field.1 _) record).lookup key).getD [] = _
      rw [ih, Dict.lookup_set]
      by_cases hkey : field.1 = key
      · rw [if_pos hkey.symm, List.filter_cons_of_pos (by simpa using hkey), hkey]
        simp
      · rw [if_neg (Ne.symm hkey), List.filter_cons_of_neg (by simpa using hkey)]

theorem first_grouped (record : List (Text × Text)) (key : Text) :
    first (grouped [] record) key = (record.lookup key).getD [] := by
  rw [first, grouped_lookup]
  change ((record.filter (·.1 = key)).map Prod.snd).headD [] = _
  induction record with
  | nil => rfl
  | cons field record ih =>
      rw [Dict.lookup_item]
      by_cases hkey : field.1 = key
      · rw [List.filter_cons_of_pos (by simpa using hkey), if_pos hkey.symm]
        rfl
      · rw [List.filter_cons_of_neg (by simpa using hkey), if_neg (Ne.symm hkey), ih]

theorem terse_pair_ne_nil (key value : Text) : terse [key, value] ≠ [] := by
  rw [terse_cons key (List.cons_ne_nil _ _)]
  simp

theorem line_start (hkey : key ≠ []) (r : Reading) :
    Reading.line key r (terse [key, value]) = .ok ⟨r.closed, some (grouped [] [(key, value)])⟩ := by
  rw [Reading.line, if_neg (terse_pair_ne_nil key value), fieldLine_terse hkey]
  simp only [bind, Except.bind, if_true]
  rfl

theorem line_next {startKey : Text} (hkey : key ≠ []) (hstart : key ≠ startKey)
    (records : List Fields) (current : Fields) :
    Reading.line startKey ⟨records, some current⟩ (terse [key, value]) =
      .ok ⟨records, some (grouped current [(key, value)])⟩ := by
  rw [Reading.line, if_neg (terse_pair_ne_nil key value), fieldLine_terse hkey]
  simp only [bind, Except.bind, if_neg hstart]
  rfl

/-- The fields of a record after its first. -/
theorem lines_rest {startKey : Text} (records : List Fields) (current : Fields)
    (h : ∀ field ∈ record, field.1 ≠ startKey ∧ field.1 ≠ []) :
    (record.map fun field => terse [field.1, field.2]).foldlM (Reading.line startKey)
      ⟨records, some current⟩ = .ok ⟨records, some (grouped current record)⟩ := by
  induction record generalizing current with
  | nil => rfl
  | cons field record ih =>
      obtain ⟨hstart, hkey⟩ := h field List.mem_cons_self
      rw [List.map_cons, List.foldlM_cons, line_next hkey hstart]
      exact ih _ fun other hother => h other (List.mem_cons_of_mem _ hother)

/-- A record of the list: its name comes first and only there. -/
structure Listed (record : List (Text × Text)) : Prop where
  name : ∃ value rest, record = (NAME, value) :: rest ∧
    ∀ field ∈ rest, field.1 ≠ NAME ∧ field.1 ≠ []
  lines : ∀ field ∈ record, OneLine field.1 ∧ OneLine field.2

theorem lines_record (h : Listed record) (r : Reading) :
    (record.map fun field => terse [field.1, field.2]).foldlM (Reading.line NAME) r =
      .ok ⟨r.closed, some (grouped [] record)⟩ := by
  obtain ⟨value, rest, rfl, hrest⟩ := h.name
  rw [List.map_cons, List.foldlM_cons, line_start (by decide)]
  exact lines_rest r.closed _ hrest

theorem lines_records {records : List (List (Text × Text))} (h : ∀ record ∈ records, Listed record)
    (r : Reading) :
    ∃ left : Reading, (records.flatten.map fun field => terse [field.1, field.2]).foldlM
        (Reading.line NAME) r = .ok left ∧ left.closed = r.closed ++ records.map (grouped []) := by
  induction records generalizing r with
  | nil => exact ⟨r, rfl, by simp⟩
  | cons record records ih =>
      obtain ⟨left, hleft, hclosed⟩ := ih (fun other hother => h other (List.mem_cons_of_mem _ hother))
        ⟨r.closed, some (grouped [] record)⟩
      refine ⟨left, ?_, by simpa [Reading.closed] using hclosed⟩
      rw [List.flatten_cons, List.map_append, List.foldlM_append,
        lines_record (h record List.mem_cons_self)]
      exact hleft

/-- Every list of profiles is read as it was. -/
theorem parseProfileSummary_output {records : List (List (Text × Text))}
    (h : ∀ record ∈ records, Listed record) :
    parseProfileSummary (records.flatMap multilineOutput) =
      .ok (records.map fun record => summaryOf fun key => (record.lookup key).getD []) := by
  have houtput : records.flatMap multilineOutput =
      (records.flatten.map fun field => terse [field.1, field.2]).flatMap (· ++ [LF]) := by
    induction records with
    | nil => rfl
    | cons record records ih =>
        rw [List.flatMap_cons, ih fun other hother => h other (List.mem_cons_of_mem _ hother),
          List.flatten_cons, List.map_append, List.flatMap_append, multilineOutput, List.flatMap_map,
          List.flatMap_map]
  have hfields : ∀ field ∈ records.flatten, OneLine field.1 ∧ OneLine field.2 := by
    intro field hfield
    obtain ⟨record, hrecord, hmem⟩ := List.mem_flatten.mp hfield
    exact (h record hrecord).lines field hmem
  have hlines : ∀ line ∈ records.flatten.map fun field => terse [field.1, field.2],
      LF ∉ line ∧ 13 ∉ line := by
    intro line hline
    obtain ⟨field, hfield, rfl⟩ := List.mem_map.mp hline
    obtain ⟨hkey, hvalue⟩ := hfields field hfield
    exact ⟨not_mem_terse (by decide) (by simp [hkey.1, hvalue.1]),
      not_mem_terse (by decide) (by simp [hkey.2, hvalue.2])⟩
  have hreturn : 13 ∉ records.flatMap multilineOutput := by
    rw [houtput]
    intro hmem
    obtain ⟨line, hline, hmem⟩ := List.mem_flatMap.mp hmem
    rcases List.mem_append.mp hmem with hmem | hmem
    · exact (hlines line hline).2 hmem
    · exact absurd (List.mem_singleton.mp hmem) (by decide)
  obtain ⟨left, hleft, hclosed⟩ := lines_records h ⟨[], none⟩
  have hread : multilineRecords (records.flatMap multilineOutput) NAME =
      .ok (records.map (grouped [])) := by
    rw [multilineRecords, replaceCrLf_eq hreturn, houtput,
      splitOn_lines fun line hline => (hlines line hline).1, List.foldlM_append, hleft]
    change Except.ok (Reading.closed ⟨left.closed, none⟩) = _
    rw [Reading.closed, hclosed]
    simp [Reading.closed]
  rw [parseProfileSummary, hread]
  refine congrArg Except.ok ?_
  rw [List.map_map]
  refine List.map_congr_left fun record _ => ?_
  exact congrArg summaryOf (funext (first_grouped record))

end

/-! ### Lines that are read one by one -/

section

variable {α β γ : Type} {ε : Type} {step : α → Except ε β} {items others : List α}

theorem mapM_append_ok {results : List β} :
    (items ++ others).mapM step = .ok results ↔
      ∃ first rest, items.mapM step = .ok first ∧ others.mapM step = .ok rest ∧
        results = first ++ rest := by
  rw [List.mapM_append]
  simp only [bind_eq_ok, pure_eq_ok]
  constructor
  · rintro ⟨first, hfirst, rest, hrest, rfl⟩
    exact ⟨first, rest, hfirst, hrest, rfl⟩
  · rintro ⟨first, rest, hfirst, hrest, rfl⟩
    exact ⟨first, hfirst, rest, hrest, rfl⟩

theorem item_of_mapM {results : List β} (h : items.mapM step = .ok results) {item : α}
    (hitem : item ∈ items) : ∃ result, step item = .ok result := by
  obtain ⟨front, back, rfl⟩ := List.append_of_mem hitem
  obtain ⟨_, _, -, hrest, -⟩ := mapM_append_ok.mp h
  rw [List.mapM_cons, bind_eq_ok] at hrest
  obtain ⟨result, hresult, -⟩ := hrest
  exact ⟨result, hresult⟩

/-- Reading every line first and keeping the fields then is the same. -/
theorem foldlM_read (read : α → Except ε β) (keep : γ → β → γ) (items : List α) (start : γ) :
    (items.foldlM (fun held item => do
      let result ← read item
      return keep held result) start) =
      (items.mapM read).map fun results => results.foldl keep start := by
  induction items generalizing start with
  | nil => rfl
  | cons item items ih =>
      rw [List.foldlM_cons, List.mapM_cons]
      cases hread : read item with
      | error e => rfl
      | ok result =>
          refine (ih (keep start result)).trans ?_
          cases items.mapM read <;> rfl

end

theorem pieces_lines {lines : List Text} (h : ∀ line ∈ lines, 13 ∉ line) :
    pieces (lines.flatMap (· ++ [LF])) = lines.flatMap pieces ∧
      13 ∉ lines.flatMap (· ++ [LF]) := by
  have hreturn : 13 ∉ lines.flatMap (· ++ [LF]) := by
    intro hmem
    obtain ⟨line, hline, hmem⟩ := List.mem_flatMap.mp hmem
    rcases List.mem_append.mp hmem with hmem | hmem
    · exact h line hline hmem
    · exact absurd (List.mem_singleton.mp hmem) (by decide)
  refine ⟨?_, hreturn⟩
  induction lines with
  | nil => rfl
  | cons line lines ih =>
      rw [List.flatMap_cons, List.append_assoc, List.singleton_append] at hreturn ⊢
      rw [PyLines.pieces_append (by decide) hreturn, List.flatMap_cons,
        ih (fun other hother => h other (List.mem_cons_of_mem _ hother)) fun hmem =>
          hreturn (List.mem_append_right _ (List.mem_cons_of_mem _ hmem))]

/-! ### The scan -/

section

variable {digit : ℕ → Option ℕ} {lower : Text → Text} {profiles : List Summary}
  {activeUuid : Text} {row : ScanRow} {rows : List ScanRow}

/-- The fields of a row as its line gives them back. -/
def ScanRow.trimmed (row : ScanRow) : ScanRow :=
  { row with
    inUse := row.inUse.dropWhile isBreak
    security := row.security.rdropWhile isBreak }

theorem strip_dropWhile (text : Text) : strip (text.dropWhile isBreak) = strip text := by
  have hspace : ∀ c, isBreak c = true → isSpace c = true := by
    intro c hc
    simp only [isBreak, isSpace, Bool.or_eq_true, Bool.and_eq_true, decide_eq_true_eq,
      beq_iff_eq] at hc ⊢
    omega
  refine congrArg (List.rdropWhile isSpace) ?_
  induction text with
  | nil => rfl
  | cons c text ih =>
      by_cases hc : isBreak c = true
      · rw [List.dropWhile_cons_of_pos hc, List.dropWhile_cons_of_pos (hspace c hc), ih]
      · rw [List.dropWhile_cons_of_neg hc]

theorem networkOf_trimmed (row : ScanRow) :
    networkOf digit lower profiles activeUuid row.trimmed =
      (networkOf digit lower profiles activeUuid row).map fun network =>
        { network with security := row.security.rdropWhile isBreak } := by
  simp only [networkOf, ScanRow.trimmed, strip_dropWhile]
  cases parseFrequency digit row.frequency <;> rfl

theorem networkOf_security {network : WifiNetwork}
    (h : networkOf digit lower profiles activeUuid row = .ok network) :
    network.security = row.security ∧
      ∃ frequency, parseFrequency digit row.frequency = .ok frequency := by
  rw [networkOf, bind_eq_ok] at h
  obtain ⟨frequency, hfrequency, h⟩ := h
  exact ⟨by rw [← pure_eq_ok.mp h], frequency, hfrequency⟩

theorem exists_network {frequency : Option ℤ}
    (h : parseFrequency digit row.frequency = .ok frequency) :
    ∃ network, networkOf digit lower profiles activeUuid row = .ok network := by
  rw [networkOf, h]
  exact ⟨_, rfl⟩

theorem scanLine_terse (row : ScanRow) :
    scanLine digit lower profiles activeUuid (terse row.fields) =
      if row.ssid = [] then .ok none
      else (networkOf digit lower profiles activeUuid row).map some := by
  rw [scanLine, splitEscaped_terse (show row.fields ≠ [] from List.cons_ne_nil _ _)]
  simp only [ScanRow.fields, bind, Except.bind]
  split_ifs with hssid
  · rfl
  · cases networkOf digit lower profiles activeUuid row <;> rfl

theorem scanLine_short {values : List Text} (hne : values ≠ []) (hlength : values.length < 6)
    (found : Option WifiNetwork) :
    scanLine digit lower profiles activeUuid (terse values) ≠ .ok found := by
  rw [scanLine, splitEscaped_terse hne]
  rcases values with _ | ⟨a, _ | ⟨b, _ | ⟨c, _ | ⟨d, _ | ⟨e, _ | ⟨f, values⟩⟩⟩⟩⟩⟩
  on_goal 7 =>
    simp only [List.length_cons] at hlength
    omega
  all_goals exact fun h => by cases h

/-- No break is left inside a row. -/
def ScanRow.Clean (row : ScanRow) : Prop := ∀ field ∈ row.trimmed.fields, Plain field

theorem pieces_row (hreturn : ∀ field ∈ row.fields, 13 ∉ field) :
    pieces (terse row.fields) = pieces (terse row.trimmed.fields) ∧
      13 ∉ terse row.trimmed.fields := by
  have hline : 13 ∉ terse row.fields := not_mem_terse (by decide) hreturn
  refine ⟨pieces_terse_ends row.inUse [row.ssid, row.bssid, row.signal, row.frequency] row.security
    hline, not_mem_terse (by decide) ?_⟩
  intro field hfield hmem
  simp only [ScanRow.fields, ScanRow.trimmed, List.mem_cons, List.not_mem_nil, or_false] at hfield
  rcases hfield with rfl | rfl | rfl | rfl | rfl | rfl
  · exact hreturn row.inUse (by simp [ScanRow.fields]) ((List.dropWhile_suffix _).mem hmem)
  · exact hreturn row.ssid (by simp [ScanRow.fields]) hmem
  · exact hreturn row.bssid (by simp [ScanRow.fields]) hmem
  · exact hreturn row.signal (by simp [ScanRow.fields]) hmem
  · exact hreturn row.frequency (by simp [ScanRow.fields]) hmem
  · exact hreturn row.security (by simp [ScanRow.fields]) ((List.rdropWhile_prefix _ _).mem hmem)

/-- What the lines of one row give. -/
theorem scan_row_iff (hreturn : ∀ field ∈ row.fields, 13 ∉ field)
    {results : List (Option WifiNetwork)} :
    (pieces (terse row.fields)).mapM (scanLine digit lower profiles activeUuid) = .ok results ↔
      row.Clean ∧ (row.ssid = [] ∧ results = [none] ∨ row.ssid ≠ [] ∧
        ∃ network, networkOf digit lower profiles activeUuid row = .ok network ∧
          results = [some { network with security := row.security.rdropWhile isBreak }]) := by
  obtain ⟨hpieces, hline⟩ := pieces_row hreturn
  rw [hpieces]
  by_cases hclean : row.Clean
  · have hne : terse row.trimmed.fields ≠ [] := by
      rw [ScanRow.fields, terse_cons _ (List.cons_ne_nil _ _)]
      simp
    have hssid : row.trimmed.ssid = row.ssid := rfl
    rw [PyLines.pieces_plain hne (plain_terse hclean), List.mapM_cons, List.mapM_nil,
      scanLine_terse, hssid, networkOf_trimmed]
    simp only [hclean, true_and]
    by_cases hempty : row.ssid = []
    · simp only [hempty, if_true, true_and, ne_eq, not_true, false_and, or_false]
      exact ⟨fun h => (Except.ok.inj h).symm, fun h => h ▸ rfl⟩
    · simp only [hempty, if_false, false_and, ne_eq, not_false_iff, true_and, false_or]
      cases networkOf digit lower profiles activeUuid row with
      | error e =>
          constructor
          · intro h
            cases h
          · rintro ⟨_, h, -⟩
            cases h
      | ok network =>
          constructor
          · intro h
            exact ⟨network, rfl, (Except.ok.inj h).symm⟩
          · rintro ⟨other, hother, rfl⟩
            rw [Except.ok.inj hother]
            rfl
  · refine iff_of_false (fun h => ?_) fun h => hclean h.1
    obtain ⟨values, hne, hpiece, hlength⟩ := exists_short_piece hline (by simp [ScanRow.fields])
      (head_dropWhile_not row.inUse) (getLast_rdropWhile_not row.security) hclean
    obtain ⟨result, hresult⟩ := item_of_mapM h hpiece
    exact scanLine_short hne hlength result hresult

/-- A row that the scan can read: breaks stand at most before the first field,
which is stripped, and after the last of a row that is dropped. -/
structure ScanRow.Readable (digit : ℕ → Option ℕ) (row : ScanRow) : Prop where
  inUse : Plain (row.inUse.dropWhile isBreak)
  others : Plain row.ssid ∧ Plain row.bssid ∧ Plain row.signal ∧ Plain row.frequency
  security : Plain (if row.ssid = [] then row.security.rdropWhile isBreak else row.security)
  frequency : row.ssid ≠ [] → ∃ frequency, parseFrequency digit row.frequency = .ok frequency

theorem rdropWhile_of_plain {text : Text} (h : Plain text) : text.rdropWhile isBreak = text :=
  rdropWhile_eq_self_of_getLast fun c hc => h c (List.mem_of_mem_getLast? hc)

theorem plain_of_rdropWhile {text : Text} (h : Plain text) : Plain (text.rdropWhile isBreak) :=
  fun c hc => h c ((List.rdropWhile_prefix _ _).mem hc)

theorem clean_iff : row.Clean ↔ Plain (row.inUse.dropWhile isBreak) ∧
    (Plain row.ssid ∧ Plain row.bssid ∧ Plain row.signal ∧ Plain row.frequency) ∧
    Plain (row.security.rdropWhile isBreak) := by
  simp only [ScanRow.Clean, ScanRow.fields, ScanRow.trimmed, List.forall_mem_cons, and_assoc,
    List.not_mem_nil, false_implies, implies_true, and_true]

/-- The rows with a name are read back exactly where every row is readable. -/
theorem scan_lossless (hreturn : ∀ row ∈ rows, ∀ field ∈ row.fields, 13 ∉ field) :
    (∃ networks results,
      (rows.filter (·.ssid ≠ [])).mapM (networkOf digit lower profiles activeUuid) = .ok networks ∧
      (rows.flatMap fun row => pieces (terse row.fields)).mapM
        (scanLine digit lower profiles activeUuid) = .ok results ∧
      results.filterMap id = networks) ↔ ∀ row ∈ rows, row.Readable digit := by
  induction rows with
  | nil => exact iff_of_true ⟨[], [], rfl, rfl, rfl⟩ (by simp)
  | cons row rows ih =>
      have hrow := hreturn row List.mem_cons_self
      have hrows := ih fun other hother => hreturn other (List.mem_cons_of_mem _ hother)
      rw [List.forall_mem_cons, ← hrows]
      constructor
      · rintro ⟨networks, results, hnetworks, hresults, hsame⟩
        rw [List.flatMap_cons, mapM_append_ok] at hresults
        obtain ⟨first, rest, hfirst, hrest, rfl⟩ := hresults
        obtain ⟨hclean, ⟨hempty, rfl⟩ | ⟨hnamed, network, hnetwork, rfl⟩⟩ :=
          (scan_row_iff hrow).mp hfirst
        · obtain ⟨hinUse, hothers, hsecurity⟩ := clean_iff.mp hclean
          rw [List.filter_cons_of_neg (by simpa using hempty)] at hnetworks
          exact ⟨⟨hinUse, hothers, (if_pos hempty).symm ▸ hsecurity, fun h => absurd hempty h⟩,
            networks, rest, hnetworks, hrest, hsame⟩
        · obtain ⟨hinUse, hothers, hsecurity⟩ := clean_iff.mp hclean
          rw [List.filter_cons_of_pos (by simpa using hnamed), List.mapM_cons, hnetwork,
            bind_eq_ok] at hnetworks
          obtain ⟨same, hhead, hnetworks⟩ := hnetworks
          obtain rfl := Except.ok.inj hhead
          rw [bind_eq_ok] at hnetworks
          obtain ⟨others, hothersRead, hnetworks⟩ := hnetworks
          obtain rfl := pure_eq_ok.mp hnetworks
          rw [List.filterMap_append] at hsame
          obtain ⟨hequal, htail⟩ := List.cons.inj hsame
          obtain ⟨hkept, hfrequency⟩ := networkOf_security hnetwork
          have htrim : row.security.rdropWhile isBreak = row.security :=
            (congrArg WifiNetwork.security hequal).trans hkept
          exact ⟨⟨hinUse, hothers, (if_neg hnamed).symm ▸ htrim ▸ hsecurity, fun _ => hfrequency⟩,
            others, rest, hothersRead, hrest, htail⟩
      · rintro ⟨hreadable, networks, rest, hnetworks, hrest, hsame⟩
        by_cases hempty : row.ssid = []
        · have hsecurity := hreadable.security
          rw [if_pos hempty] at hsecurity
          have hclean : row.Clean :=
            clean_iff.mpr ⟨hreadable.inUse, hreadable.others, hsecurity⟩
          refine ⟨networks, [none] ++ rest, ?_, ?_, hsame⟩
          · rw [List.filter_cons_of_neg (by simpa using hempty)]
            exact hnetworks
          · rw [List.flatMap_cons, mapM_append_ok]
            exact ⟨_, rest, (scan_row_iff hrow).mpr ⟨hclean, Or.inl ⟨hempty, rfl⟩⟩, hrest, rfl⟩
        · have hsecurity := hreadable.security
          rw [if_neg hempty] at hsecurity
          have hclean : row.Clean := clean_iff.mpr ⟨hreadable.inUse, hreadable.others,
            plain_of_rdropWhile hsecurity⟩
          obtain ⟨frequency, hfrequency⟩ := hreadable.frequency hempty
          obtain ⟨network, hnetwork⟩ :=
            @exists_network digit lower profiles activeUuid row frequency hfrequency
          have hkept : { network with security := row.security.rdropWhile isBreak } = network := by
            rw [rdropWhile_of_plain hsecurity, ← (networkOf_security hnetwork).1]
          refine ⟨network :: networks, [some network] ++ rest, ?_, ?_, ?_⟩
          · rw [List.filter_cons_of_pos (by simpa using hempty), List.mapM_cons, hnetwork,
              bind_eq_ok]
            exact ⟨network, rfl, bind_eq_ok.mpr ⟨networks, hnetworks, rfl⟩⟩
          · rw [List.flatMap_cons, mapM_append_ok]
            exact ⟨_, rest, (scan_row_iff hrow).mpr
              ⟨hclean, Or.inr ⟨hempty, network, hnetwork, by rw [hkept]⟩⟩, hrest, rfl⟩
          · rw [List.filterMap_append, hsame]
            rfl

end

/-! ### Details -/

section

variable {key value : Text} {details : List (Text × Text)}

theorem fieldLine_short {values : List Text} (hne : values ≠ []) (hlength : values.length < 2)
    (field : Text × Text) : fieldLine (terse values) ≠ .ok field := by
  rw [fieldLine, splitEscaped_terse hne]
  simp [bind, Except.bind, hlength]

theorem fieldLine_nameless (value : Text) (field : Text × Text) :
    fieldLine (terse [[], value]) ≠ .ok field := by
  rw [fieldLine, splitEscaped_terse (List.cons_ne_nil _ _)]
  simp [bind, Except.bind]

/-- What the lines of one field give. -/
theorem details_field (hkey : 13 ∉ key) (hvalue : 13 ∉ value) {results : List (Text × Text)}
    (h : (pieces (terse [key, value])).mapM fieldLine = .ok results) :
    Plain (key.dropWhile isBreak) ∧ Plain (value.rdropWhile isBreak) ∧
      results = [(key.dropWhile isBreak, value.rdropWhile isBreak)] := by
  have hline : 13 ∉ terse [key, value] := not_mem_terse (by decide) (by simp [hkey, hvalue])
  have htrimmed : 13 ∉ terse [key.dropWhile isBreak, value.rdropWhile isBreak] := by
    refine not_mem_terse (by decide) fun field hfield hmem => ?_
    simp only [List.mem_cons, List.not_mem_nil, or_false] at hfield
    rcases hfield with rfl | rfl
    · exact hkey ((List.dropWhile_suffix _).mem hmem)
    · exact hvalue ((List.rdropWhile_prefix _ _).mem hmem)
  have hends := pieces_terse_ends key [] value hline
  rw [List.singleton_append, List.singleton_append] at hends
  rw [hends] at h
  by_cases hplain : ∀ field ∈ [key.dropWhile isBreak, value.rdropWhile isBreak], Plain field
  · rw [PyLines.pieces_plain (terse_pair_ne_nil _ _) (plain_terse hplain), List.mapM_cons,
      bind_eq_ok] at h
    obtain ⟨field, hfield, h⟩ := h
    obtain rfl := pure_eq_ok.mp h
    refine ⟨hplain _ (by simp), hplain _ (by simp), ?_⟩
    by_cases hname : key.dropWhile isBreak = []
    · rw [hname] at hfield
      exact absurd hfield (fieldLine_nameless _ field)
    · rw [fieldLine_terse hname] at hfield
      obtain rfl := Except.ok.inj hfield
      rfl
  · obtain ⟨values, hne, hpiece, hlength⟩ := exists_short_piece htrimmed le_rfl
      (head_dropWhile_not key) (getLast_rdropWhile_not value) hplain
    obtain ⟨field, hfield⟩ := item_of_mapM h hpiece
    exact absurd hfield (fieldLine_short hne hlength field)

theorem details_plain (hname : key ≠ []) (hkey : Plain key) (hvalue : Plain value) :
    (pieces (terse [key, value])).mapM fieldLine = .ok [(key, value)] := by
  rw [PyLines.pieces_plain (terse_pair_ne_nil key value) (plain_terse (by simp [hkey, hvalue])),
    List.mapM_cons, fieldLine_terse hname]
  rfl

theorem details_fields (h : ∀ field ∈ details, 13 ∉ field.1 ∧ 13 ∉ field.2)
    {results : List (Text × Text)}
    (hread : (details.flatMap fun field => pieces (terse [field.1, field.2])).mapM fieldLine =
      .ok results) :
    results = details.map (fun field => (field.1.dropWhile isBreak, field.2.rdropWhile isBreak)) ∧
      ∀ field ∈ results, Plain field.1 ∧ Plain field.2 := by
  induction details generalizing results with
  | nil =>
      obtain rfl := pure_eq_ok.mp hread
      exact ⟨rfl, by simp⟩
  | cons field details ih =>
      rw [List.flatMap_cons, mapM_append_ok] at hread
      obtain ⟨first, rest, hfirst, hrest, rfl⟩ := hread
      obtain ⟨hkey, hvalue⟩ := h field List.mem_cons_self
      obtain ⟨hplainKey, hplainValue, rfl⟩ := details_field hkey hvalue hfirst
      obtain ⟨rfl, hplain⟩ := ih (fun other hother => h other (List.mem_cons_of_mem _ hother)) hrest
      refine ⟨rfl, fun other hother => ?_⟩
      rcases List.mem_cons.mp hother with rfl | hother
      · exact ⟨hplainKey, hplainValue⟩
      · exact hplain other hother

theorem mem_keys_merge {held items : List (Text × Text)} {asked : Text} :
    asked ∈ Dict.keys (Dict.merge held items) ↔
      asked ∈ Dict.keys held ∨ asked ∈ Dict.keys items := by
  induction items generalizing held with
  | nil => simp [Dict.merge, Dict.keys]
  | cons item items ih =>
      rw [Dict.merge, List.foldl_cons]
      change asked ∈ Dict.keys (Dict.merge _ items) ↔ _
      rw [ih, Dict.mem_keys_set]
      simp only [Dict.keys, List.map_cons, List.mem_cons]
      tauto

/-- Items under new and distinct keys are added as they are. -/
theorem merge_new {held items : List (Text × Text)} (h : (Dict.keys (held ++ items)).Nodup) :
    Dict.merge held items = held ++ items := by
  induction items generalizing held with
  | nil => exact (List.append_nil held).symm
  | cons item items ih =>
      rw [Dict.merge, List.foldl_cons, Dict.set_new]
      · refine (ih ?_).trans (by simp)
        rwa [List.append_assoc, List.singleton_append]
      · rw [Dict.keys, List.map_append, List.map_cons, List.nodup_append] at h
        exact fun hmem => h.2.2 _ hmem _ List.mem_cons_self rfl

/-- Details are read back exactly where no break stands in them. -/
theorem details_lossless (h : ∀ field ∈ details, 13 ∉ field.1 ∧ 13 ∉ field.2)
    (hnames : ∀ field ∈ details, field.1 ≠ []) (hkeys : (Dict.keys details).Nodup) :
    detailRecord (multilineOutput details) = .ok details ↔
      ∀ field ∈ details, Plain field.1 ∧ Plain field.2 := by
  have hlines : ∀ line ∈ details.map fun field => terse [field.1, field.2], 13 ∉ line := by
    intro line hline
    obtain ⟨field, hfield, rfl⟩ := List.mem_map.mp hline
    exact not_mem_terse (by decide) (by simp [h field hfield])
  obtain ⟨hpieces, hreturn⟩ := pieces_lines hlines
  have houtput : multilineOutput details =
      (details.map fun field => terse [field.1, field.2]).flatMap (· ++ [LF]) := by
    rw [List.flatMap_map]
    rfl
  have hdetails : detailRecord (multilineOutput details) =
      ((details.flatMap fun field => pieces (terse [field.1, field.2])).mapM fieldLine).map
        (Dict.merge []) := by
    rw [detailRecord, replaceCrLf_eq (houtput ▸ hreturn), houtput, hpieces, List.flatMap_map]
    exact foldlM_read fieldLine (fun record field => Dict.set record field.1 field.2) _ []
  rw [hdetails]
  constructor
  · intro hread
    cases hresults : (details.flatMap fun field => pieces (terse [field.1, field.2])).mapM
        fieldLine with
    | error e =>
        rw [hresults] at hread
        cases hread
    | ok results =>
        rw [hresults] at hread
        have hmerge : Dict.merge [] results = details := Except.ok.inj hread
        obtain ⟨htrimmed, hplain⟩ := details_fields h hresults
        have hkeyPlain : ∀ field ∈ details, Plain field.1 := by
          intro field hfield
          have hmem : field.1 ∈ Dict.keys (Dict.merge [] results) := by
            rw [hmerge]
            exact List.mem_map_of_mem hfield
          rcases mem_keys_merge.mp hmem with hnil | hmem
          · cases hnil
          · obtain ⟨found, hfound, heq⟩ := List.mem_map.mp hmem
            exact heq ▸ (hplain found hfound).1
        have hsameKeys : Dict.keys results = Dict.keys details := by
          rw [htrimmed, Dict.keys, Dict.keys, List.map_map]
          refine List.map_congr_left fun field hfield => ?_
          exact dropWhile_eq_self_of_head fun c hc =>
            hkeyPlain field hfield c (List.mem_of_mem_head? hc)
        have hsame : results = details := by
          have hnew : (Dict.keys ([] ++ results)).Nodup := by
            rw [List.nil_append, hsameKeys]
            exact hkeys
          exact (merge_new hnew).symm.trans hmerge
        exact hsame ▸ hplain
  · intro hplain
    have hread : (details.flatMap fun field => pieces (terse [field.1, field.2])).mapM fieldLine =
        .ok details := by
      clear hdetails houtput hreturn hpieces hlines hkeys h
      induction details with
      | nil => rfl
      | cons field details ih =>
          obtain ⟨hkey, hvalue⟩ := hplain field List.mem_cons_self
          rw [List.flatMap_cons, mapM_append_ok]
          exact ⟨[field], details, details_plain (hnames field List.mem_cons_self) hkey hvalue,
            ih (fun other hother => hnames other (List.mem_cons_of_mem _ hother))
              fun other hother => hplain other (List.mem_cons_of_mem _ hother), rfl⟩
    rw [hread]
    exact congrArg Except.ok (merge_new hkeys)

end

/-! ### All three -/

/-- Each reader gives back the records that were printed. -/
structure Lossless (digit : ℕ → Option ℕ) (lower : Text → Text) (profiles : List Summary)
    (activeUuid : Text) (rows : List ScanRow) (listed : List (List (Text × Text)))
    (details : List (Text × Text)) : Prop where
  scan : ∃ networks, parseWifiList digit lower profiles activeUuid (scanOutput rows) = .ok networks ∧
    (rows.filter (·.ssid ≠ [])).mapM (networkOf digit lower profiles activeUuid) = .ok networks
  summaries : parseProfileSummary (listed.flatMap multilineOutput) =
    .ok (listed.map fun record => summaryOf fun key => (record.lookup key).getD [])
  details : detailRecord (multilineOutput details) = .ok details

theorem parseWifiList_output {digit : ℕ → Option ℕ} {lower : Text → Text} {profiles : List Summary}
    {activeUuid : Text} {rows : List ScanRow}
    (h : ∀ row ∈ rows, ∀ field ∈ row.fields, 13 ∉ field) :
    parseWifiList digit lower profiles activeUuid (scanOutput rows) =
      ((rows.flatMap fun row => pieces (terse row.fields)).mapM
        (scanLine digit lower profiles activeUuid)).map (List.filterMap id) := by
  have hlines : ∀ line ∈ rows.map fun row => terse row.fields, 13 ∉ line := by
    intro line hline
    obtain ⟨row, hrow, rfl⟩ := List.mem_map.mp hline
    exact not_mem_terse (by decide) (h row hrow)
  obtain ⟨hpieces, hreturn⟩ := pieces_lines hlines
  have houtput : scanOutput rows =
      (rows.map fun row => terse row.fields).flatMap (· ++ [LF]) := by
    rw [List.flatMap_map]
    rfl
  rw [parseWifiList, replaceCrLf_eq (houtput ▸ hreturn), houtput, hpieces, List.flatMap_map]
  cases (rows.flatMap fun row => pieces (terse row.fields)).mapM
    (scanLine digit lower profiles activeUuid) <;> rfl

/-- Nothing is lost exactly where the scan and the details see no other end of
a line inside a field. -/
theorem lossless_iff (digit : ℕ → Option ℕ) (lower : Text → Text) (profiles : List Summary)
    (activeUuid : Text) {rows : List ScanRow} {listed : List (List (Text × Text))}
    {details : List (Text × Text)} (hrows : ∀ row ∈ rows, ∀ field ∈ row.fields, OneLine field)
    (hlisted : ∀ record ∈ listed, Listed record)
    (hdetails : ∀ field ∈ details, OneLine field.1 ∧ OneLine field.2 ∧ field.1 ≠ [])
    (hkeys : (Dict.keys details).Nodup) :
    Lossless digit lower profiles activeUuid rows listed details ↔
      (∀ row ∈ rows, row.Readable digit) ∧ ∀ field ∈ details, Plain field.1 ∧ Plain field.2 := by
  have hreturn : ∀ row ∈ rows, ∀ field ∈ row.fields, 13 ∉ field :=
    fun row hrow field hfield => (hrows row hrow field hfield).2
  have hfields : ∀ field ∈ details, 13 ∉ field.1 ∧ 13 ∉ field.2 :=
    fun field hfield => ⟨(hdetails field hfield).1.2, (hdetails field hfield).2.1.2⟩
  rw [← @scan_lossless digit lower profiles activeUuid rows hreturn,
    ← details_lossless hfields (fun field hfield => (hdetails field hfield).2.2) hkeys]
  constructor
  · rintro ⟨⟨networks, hread, hnetworks⟩, -, hdetail⟩
    rw [parseWifiList_output hreturn] at hread
    refine ⟨?_, hdetail⟩
    cases hresults : (rows.flatMap fun row => pieces (terse row.fields)).mapM
        (scanLine digit lower profiles activeUuid) with
    | error e =>
        rw [hresults] at hread
        cases hread
    | ok results =>
        rw [hresults] at hread
        exact ⟨networks, results, hnetworks, rfl, Except.ok.inj hread⟩
  · rintro ⟨⟨networks, results, hnetworks, hresults, rfl⟩, hdetail⟩
    refine ⟨⟨_, ?_, hnetworks⟩, parseProfileSummary_output hlisted, hdetail⟩
    rw [parseWifiList_output hreturn, hresults]
    rfl

/-! ### A network of a stranger -/

def asciiDigit (c : ℕ) : Option ℕ := if isDigit c then some (c - 48) else none

def cafe : ScanRow :=
  ⟨ascii "*", ascii "Cafe: Nord", ascii "AA:BB", ascii "70", ascii "5180 MHz", ascii "WPA2"⟩

/-- A name with a line separator, U+2028. -/
def broken : ScanRow :=
  ⟨ascii " ", ascii "Cafe" ++ [0x2028] ++ ascii "Nord", ascii "AA:BC", ascii "60",
    ascii "2412 MHz", ascii "WPA2"⟩

theorem roundFloat_of_fin {number : ℚ} {double : Double} (h : Number.ofRat number = .fin double) :
    roundFloat number = .ok (Binary64.roundEven double.val) := by
  delta roundFloat
  rw [h]

theorem cafe_frequency : parseFrequency asciiDigit cafe.frequency = .ok (some 5180) := by
  have hsmall : |(5180 : ℤ)| ≤ 2 ^ 53 := by decide
  have hfirst : firstNumber asciiDigit cafe.frequency = some (((5180 : ℕ) : ℚ) / 10 ^ 0) := rfl
  have hnumber : Number.ofRat ((5180 : ℕ) / 10 ^ 0) = .fin (Double.ofInt 5180 hsmall) := by
    rw [pow_zero, div_one]
    exact Number.ofRat_of_nearest (Binary64.nearest_intCast hsmall)
  have hround : roundFloat ((5180 : ℕ) / 10 ^ 0) = .ok 5180 :=
    (roundFloat_of_fin hnumber).trans (congrArg Except.ok (Binary64.roundEven_intCast 5180))
  rw [parseFrequency, hfirst, Option.mapM_some, hround]
  rfl

theorem lossless_cafe : Lossless asciiDigit lower [] [] [cafe]
    [[(NAME, ascii "Cafe: Nord"), (ascii "UUID", ascii "a1")]]
    [(ascii "connection.id", ascii "Cafe: Nord")] := by
  refine (lossless_iff _ _ _ _ (by decide) ?_ (by decide) (by decide)).mpr ⟨?_, by decide⟩
  · intro record hrecord
    obtain rfl := List.mem_singleton.mp hrecord
    exact ⟨⟨_, _, rfl, by decide⟩, by decide⟩
  · intro row hrow
    obtain rfl := List.mem_singleton.mp hrow
    exact ⟨by decide, by decide, by decide, fun _ => ⟨_, cafe_frequency⟩⟩

/-- One such name in the air, and no network is listed. -/
theorem broken_fails : ¬∀ (rows : List ScanRow) (listed : List (List (Text × Text)))
    (details : List (Text × Text)), (∀ row ∈ rows, ∀ field ∈ row.fields, OneLine field) →
    (∀ record ∈ listed, Listed record) →
    (∀ field ∈ details, OneLine field.1 ∧ OneLine field.2 ∧ field.1 ≠ []) →
    (Dict.keys details).Nodup → Lossless asciiDigit lower [] [] rows listed details := by
  intro hall
  have h := hall [broken] [] [] (by decide) (by simp) (by simp) List.nodup_nil
  obtain ⟨networks, hread, -⟩ := h.scan
  have hfails : parseWifiList asciiDigit lower [] [] (scanOutput [broken]) =
    .error (invalid "NetworkManager returned a malformed Wi-Fi scan") := by rfl
  rw [hfails] at hread
  cases hread

end Nmcli

end Network

end CybexOS
