/-
The indexed lookup of a progress token agrees with a scan of the pending rows
but where a shorter pending name or a repeated index comes between.
-/
import CybexOS.Updates.PendingRows
import Mathlib.Data.Multiset.Basic

namespace CybexOS

namespace Updates

variable {pending left : Pending} {name evr token : Text} {calls : List PendingCall}

/-! ### Which names a token can name -/

theorem rowMatchesToken_of_cut (htoken : token ≠ []) (h : token <+: name) :
    rowMatchesToken name evr token = true := by
  have hlength : ¬(name ++ DASH :: evr).length ≤ token.length := by
    have hle := h.length_le
    rw [List.length_append, List.length_cons]
    omega
  rw [rowMatchesToken, if_neg htoken]
  simp only [if_neg hlength, beq_iff_eq]
  exact (List.prefix_iff_eq_take.mp (h.trans (List.prefix_append name _))).symm

/-- A row matches through its name cut short, or its name and a dash in full. -/
theorem name_of_rowMatchesToken (h : rowMatchesToken name evr token = true) :
    token <+: name ∨ name ++ [DASH] <+: token := by
  have hkey : name ++ [DASH] <+: name ++ DASH :: evr := by
    simpa using List.prefix_append (name ++ [DASH]) evr
  unfold rowMatchesToken at h
  by_cases htoken : token = []
  · rw [if_pos htoken] at h
    cases h
  · rw [if_neg htoken] at h
    by_cases hlength : (name ++ DASH :: evr).length ≤ token.length
    · simp only [if_pos hlength, Bool.or_eq_true, beq_iff_eq] at h
      rcases h with htake | rfl
      · refine Or.inr (hkey.trans ?_)
        have hfront := List.take_prefix ((name ++ DASH :: evr).length + 1) token
        rw [htake] at hfront
        exact (List.prefix_append _ _).trans hfront
      · exact Or.inr hkey
    · simp only [if_neg hlength, beq_iff_eq] at h
      have htoken : token <+: name ++ DASH :: evr := h ▸ List.take_prefix _ _
      rcases Nat.lt_or_ge name.length token.length with hlt | hge
      · refine Or.inr (List.prefix_of_prefix_length_le hkey htoken ?_)
        simpa using hlt
      · exact Or.inl (List.prefix_of_prefix_length_le htoken (List.prefix_append _ _) hge)

theorem candidates_of_dash (h : token.head? = some DASH) : candidates token = [] := by
  cases token with
  | nil => cases h
  | cons unit token =>
      obtain rfl := Option.some.inj h
      simp [candidates, List.range_succ_eq_map]

theorem mem_candidates (h : token.head? ≠ some DASH) :
    name ∈ candidates token ↔ name ++ [DASH] <+: token := by
  have hall : ((List.range token.length).filter fun at' => token[at']? = some DASH).takeWhile
      (fun at' => 0 < at') =
        (List.range token.length).filter fun at' => token[at']? = some DASH := by
    refine List.takeWhile_eq_self_iff.mpr fun at' hat => ?_
    rw [List.mem_filter] at hat
    refine decide_eq_true (Nat.pos_of_ne_zero ?_)
    rintro rfl
    exact h (by simpa [List.head?_eq_getElem?] using hat.2)
  rw [candidates, hall, List.mem_map]
  constructor
  · rintro ⟨at', hat, rfl⟩
    rw [List.mem_filter, List.mem_range, decide_eq_true_eq] at hat
    have htake := List.take_add_one (l := token) (i := at')
    rw [hat.2] at htake
    exact (congrArg (· <+: token) htake.symm).mpr (List.take_prefix _ _)
  · rintro ⟨rest, rfl⟩
    refine ⟨name.length, ?_, by simp⟩
    simp

theorem candidate_of_matches (hdash : token.head? ≠ some DASH)
    (h : rowMatchesToken name evr token = true) :
    name ∈ candidates token ∨ token <+: name := by
  rw [mem_candidates hdash]
  exact (name_of_rowMatchesToken h).symm

/-! ### Tables -/

structure Sound (pending : Pending) : Prop where
  keys : (Dict.keys pending).Nodup
  rows : ∀ item ∈ pending, item.2 ≠ []

theorem rowsOf_eq_nil_of_not_mem (h : name ∉ Dict.keys pending) : rowsOf pending name = [] := by
  rw [rowsOf, Dict.lookup_eq_none.mpr h]
  rfl

theorem Sound.rowsOf_eq (h : Sound pending) {item : Text × List PendingRow}
    (hitem : item ∈ pending) : rowsOf pending item.1 = item.2 := by
  rw [rowsOf, Dict.lookup_of_mem h.keys hitem]
  rfl

theorem Sound.mem_keys (h : Sound pending) :
    name ∈ Dict.keys pending ↔ rowsOf pending name ≠ [] := by
  constructor
  · intro hname
    obtain ⟨item, hitem, rfl⟩ := List.mem_map.mp hname
    rw [h.rowsOf_eq hitem]
    exact h.rows item hitem
  · intro hrows
    by_contra hname
    exact hrows (rowsOf_eq_nil_of_not_mem hname)

theorem rowsOf_set (rows : List PendingRow) :
    rowsOf (Dict.set pending name rows) = Function.update (rowsOf pending) name rows := by
  funext other
  rw [rowsOf, Dict.lookup_set, Function.update_apply]
  split_ifs <;> rfl

theorem rowsOf_putRows (rows : List PendingRow) :
    rowsOf (putRows pending name rows) = Function.update (rowsOf pending) name rows := by
  unfold putRows
  split_ifs with hrows
  · funext other
    rw [rowsOf, Dict.lookup_pop, Function.update_apply, hrows]
    split_ifs <;> rfl
  · exact rowsOf_set rows

theorem added_cons (call : PendingCall) :
    added (call :: calls) name =
      (if call.name = name then [⟨call.index, call.evr⟩] else []) ++ added calls name := by
  by_cases h : call.name = name <;> simp [added, h]

theorem added_eq_nil : added calls name = [] ↔ ∀ call ∈ calls, call.name ≠ name := by
  simp [added]

/-- What a table made by calls holds. -/
theorem addRows_spec (hsound : Sound pending) (h : addRows calls pending = some left) :
    Sound left ∧ ∀ name, rowsOf left name =
      rowsOf pending name ++ if name = PROTO then [] else added calls name := by
  induction calls generalizing pending with
  | nil =>
      obtain rfl := Option.some.inj h
      exact ⟨hsound, fun name => by simp [added]⟩
  | cons call calls ih =>
      rw [addRows, List.foldlM_cons] at h
      obtain ⟨next, hnext, hrest⟩ := Option.bind_eq_some_iff.mp h
      obtain ⟨-, -, hadd⟩ := Option.bind_eq_some_iff.mp hnext
      by_cases hproto : call.name = PROTO
      · rw [if_pos hproto] at hadd
        obtain rfl := Option.some.inj hadd
        obtain ⟨hleft, hrows⟩ := ih hsound hrest
        refine ⟨hleft, fun name => ?_⟩
        rw [hrows, added_cons]
        by_cases hname : name = PROTO
        · rw [if_pos hname, if_pos hname]
        · rw [if_neg hname, if_neg hname, if_neg fun hcall => hname (hcall.symm.trans hproto),
            List.nil_append]
      · rw [if_neg hproto] at hadd
        obtain rfl := Option.some.inj hadd
        have hset : Sound (Dict.set pending call.name
            (rowsOf pending call.name ++ [⟨call.index, call.evr⟩])) := by
          refine ⟨Dict.nodup_set hsound.keys, fun item hitem => ?_⟩
          rcases Dict.mem_of_mem_set hitem with rfl | hold
          · simp
          · exact hsound.rows item hold
        obtain ⟨hleft, hrows⟩ := ih hset hrest
        refine ⟨hleft, fun name => ?_⟩
        rw [hrows, rowsOf_set, Function.update_apply, added_cons]
        by_cases hname : name = call.name
        · subst hname
          simp [hproto]
        · simp [hname, Ne.symm hname]

/-! ### What is taken -/

theorem erased {rows : List PendingRow} {p : PendingRow → Bool} {row : PendingRow}
    (h : rows.find? p = some row) :
    ∃ before after, rows = before ++ row :: after ∧ rows.eraseP p = before ++ after := by
  obtain ⟨hrow, before, after, rfl, hbefore⟩ := List.find?_eq_some_iff_append.mp h
  refine ⟨before, after, rfl, ?_⟩
  rw [List.eraseP_append_right _ (fun other hother => by simpa using hbefore other hother),
    List.eraseP_cons_of_pos hrow]

theorem removes_putRows {p : PendingRow → Bool} {row : PendingRow}
    (h : (rowsOf pending name).find? p = some row) :
    Removes (rowsOf pending) name row
      (rowsOf (putRows pending name ((rowsOf pending name).eraseP p))) := by
  obtain ⟨before, after, hrows, herased⟩ := erased h
  exact ⟨before, after, hrows, by rw [rowsOf_putRows, herased]⟩

/-- What is gone tells which row was removed. -/
theorem Removes.unique {rows rest : Text → List PendingRow} {other : Text}
    {row others : PendingRow} (h : Removes rows name row rest)
    (hother : Removes rows other others rest) : name = other ∧ row = others := by
  obtain ⟨before, after, hrows, rfl⟩ := h
  obtain ⟨front, back, hfront, heq⟩ := hother
  have hname : name = other := by
    by_contra hne
    have hat := congrFun heq name
    rw [Function.update_self, Function.update_of_ne hne, hrows] at hat
    simpa using congrArg List.length hat
  subst hname
  have hleft : before ++ after = front ++ back := by
    simpa using congrFun heq name
  have hperm : (row :: (before ++ after)).Perm (others :: (before ++ after)) := by
    have hback : (front ++ others :: back).Perm (others :: (front ++ back)) := List.perm_middle
    rw [← hrows.symm.trans hfront, ← hleft] at hback
    exact List.perm_middle.symm.trans hback
  have hcons : row ::ₘ (before ++ after : Multiset PendingRow) = others ::ₘ (before ++ after) :=
    Multiset.coe_eq_coe.mpr hperm
  exact ⟨rfl, (Multiset.cons_inj_left _).mp hcons⟩

theorem takes_removed_iff {rows rest : Text → List PendingRow} {row : PendingRow}
    (h : Removes rows name row rest) :
    Takes token rows (some row.index) rest ↔ rowMatchesToken name row.evr token = true := by
  constructor
  · intro htakes
    generalize hindex : some row.index = index at htakes
    cases htakes with
    | missed => cases hindex
    | taken hremoves hmatch =>
        obtain ⟨rfl, rfl⟩ := h.unique hremoves
        exact hmatch
  · exact Takes.taken h

theorem Takes.none_eq {rows rest : Text → List PendingRow} (h : Takes token rows none rest) :
    rest = rows ∧ ∀ name, ∀ row ∈ rows name, rowMatchesToken name row.evr token = false := by
  generalize hindex : (none : Option ℕ) = index at h
  cases h with
  | missed hnone => exact ⟨rfl, hnone⟩
  | taken => cases hindex

theorem takes_none_iff {rows : Text → List PendingRow} :
    Takes token rows none rows ↔
      ∀ name, ∀ row ∈ rows name, rowMatchesToken name row.evr token = false :=
  ⟨fun h => h.none_eq.2, Takes.missed⟩

/-- The loop over the fronts of the token. -/
theorem takeNamed_spec (hown : HAS_OWN_PROPERTY ∉ Dict.keys pending) (names : List Text)
    (named : Bool) :
    (∃ name row left, takeNamed pending token names named = some (true, some (row.index, left)) ∧
      Removes (rowsOf pending) name row (rowsOf left) ∧
      rowMatchesToken name row.evr token = true ∧ name ∈ names ∧ name ∈ Dict.keys pending) ∨
    takeNamed pending token names named =
        some (named || names.any fun name => name ∈ Dict.keys pending, none) ∧
      ∀ name ∈ names, ∀ row ∈ rowsOf pending name, rowMatchesToken name row.evr token = false := by
  induction names generalizing named with
  | nil => exact Or.inr ⟨by simp [takeNamed], by simp⟩
  | cons first names ih =>
      have hasOwn_eq : hasOwn pending first = some (decide (first ∈ Dict.keys pending)) :=
        if_neg hown
      by_cases hfirst : first ∈ Dict.keys pending
      · cases hfind : (rowsOf pending first).find? fun row =>
            rowMatchesToken first row.evr token with
        | some row =>
            refine Or.inl ⟨first, row, _, ?_, removes_putRows hfind,
              by simpa using List.find?_some hfind, List.mem_cons_self, hfirst⟩
            simp [takeNamed, hasOwn_eq, hfirst, takeFromRows, hfind]
        | none =>
            have hnone : ∀ row ∈ rowsOf pending first,
                rowMatchesToken first row.evr token = false := by
              simpa using hfind
            have hnext : takeNamed pending token (first :: names) named =
                takeNamed pending token names true := by
              simp [takeNamed, hasOwn_eq, hfirst, takeFromRows, hfind]
            rw [hnext]
            rcases ih true with ⟨name, row, left, htake, hremoves, hmatch, hname, hkey⟩ |
              ⟨htake, hrows⟩
            · exact Or.inl ⟨name, row, left, htake, hremoves, hmatch,
                List.mem_cons_of_mem _ hname, hkey⟩
            · refine Or.inr ⟨by simp [htake, hfirst], ?_⟩
              intro name hname
              rcases List.mem_cons.mp hname with rfl | hlater
              · exact hnone
              · exact hrows name hlater
      · have hnext : takeNamed pending token (first :: names) named =
            takeNamed pending token names named := by
          simp [takeNamed, hasOwn_eq, hfirst]
        rw [hnext]
        rcases ih named with ⟨name, row, left, htake, hremoves, hmatch, hname, hkey⟩ |
          ⟨htake, hrows⟩
        · exact Or.inl ⟨name, row, left, htake, hremoves, hmatch,
            List.mem_cons_of_mem _ hname, hkey⟩
        · refine Or.inr ⟨by simp [htake, hfirst], ?_⟩
          intro name hname
          rcases List.mem_cons.mp hname with rfl | hlater
          · rw [rowsOf_eq_nil_of_not_mem hfirst]
            exact fun _ h => absurd h List.not_mem_nil
          · exact hrows name hlater

/-! ### The scan -/

theorem forIn_perm (pending : Pending) : (forIn pending).Perm pending := by
  unfold forIn
  refine List.Perm.trans ((List.perm_insertionSort _ _).append_right _) ?_
  exact List.filter_append_perm _ pending

/-- The rows in the order of the scan, each with its name. -/
def scanned (pending : Pending) : List (Text × PendingRow) :=
  (forIn pending).flatMap fun item => item.2.map fun row => (item.1, row)

theorem mem_scanned {place : Text × PendingRow} :
    place ∈ scanned pending ↔ ∃ item ∈ pending, place.1 = item.1 ∧ place.2 ∈ item.2 := by
  simp only [scanned, List.mem_flatMap, List.mem_map, (forIn_perm pending).mem_iff]
  constructor
  · rintro ⟨item, hitem, row, hrow, rfl⟩
    exact ⟨item, hitem, rfl, hrow⟩
  · rintro ⟨item, hitem, hname, hrow⟩
    exact ⟨item, hitem, place.2, hrow, Prod.ext hname.symm rfl⟩

def matching (places : List (Text × PendingRow)) (token : Text) : List (Text × PendingRow) :=
  places.filter fun place => rowMatchesToken place.1 place.2.evr token

/-- The scan keeps the first of the matching rows of the least index. -/
theorem bestRow_eq (pending : Pending) (token : Text) :
    bestRow pending token =
      ((matching (scanned pending) token).argmin fun place => place.2.index).map fun place =>
        (place.1, place.2.index) := by
  rw [bestRow, List.argmin, matching, List.foldl_filter, scanned, List.foldl_flatMap]
  simp only [List.foldl_map]
  let held : Option (Text × PendingRow) → Option (Text × ℕ) :=
    Option.map fun place => (place.1, place.2.index)
  change List.foldl _ (held none) _ = held _
  refine List.foldl_hom held fun best item => ?_
  refine List.foldl_hom held fun best row => ?_
  change _ = Option.map _ _
  simp only [held]
  cases best with
  | none => by_cases hmatch : rowMatchesToken item.1 row.evr token = true <;>
      simp [hmatch, List.argAux]
  | some held =>
      by_cases hmatch : rowMatchesToken item.1 row.evr token = true
      · by_cases hless : row.index < held.2.index <;> simp [hmatch, hless, List.argAux]
      · simp [hmatch]

/-- The scan's choice stands in front of every row that is as good. -/
theorem mem_front_of_argmin {α : Type} [DecidableEq α] {f : α → ℕ} {front behind : List α}
    {least other : α} (hleast : least ∈ (front ++ behind).argmin f) (hother : other ∈ front)
    (hle : f other ≤ f least) : least ∈ front := by
  by_contra hnot
  have hidx := List.index_of_argmin hleast (List.mem_append_left behind hother) hle
  have hlt := List.idxOf_lt_length_of_mem hother
  rw [List.idxOf_append_of_mem hother, List.idxOf_append_of_notMem hnot] at hidx
  omega

section

variable {place : Text × PendingRow} {item : Text × List PendingRow}
  (hplace : place ∈ (matching (scanned pending) token).argmin fun place => place.2.index)

include hplace

theorem least_le (hitem : item ∈ pending) {other : PendingRow} (hother : other ∈ item.2)
    (hmatch : rowMatchesToken item.1 other.evr token = true) : place.2.index ≤ other.index := by
  have hmem : (item.1, other) ∈ matching (scanned pending) token :=
    List.mem_filter.mpr ⟨mem_scanned.mpr ⟨item, hitem, rfl, hother⟩, hmatch⟩
  exact List.le_of_mem_argmin (f := fun place => place.2.index) hmem hplace

/-- A row as good as the choice is not scanned before the name of the choice. -/
theorem least_ahead {ahead behind : Pending} (horder : forIn pending = ahead ++ behind)
    (hitem : item ∈ ahead) {other : PendingRow} (hother : other ∈ item.2)
    (hmatch : rowMatchesToken item.1 other.evr token = true)
    (hle : other.index ≤ place.2.index) : place.1 ∈ ahead.map Prod.fst := by
  have hsplit : matching (scanned pending) token =
      matching (ahead.flatMap fun item => item.2.map fun row => (item.1, row)) token ++
        matching (behind.flatMap fun item => item.2.map fun row => (item.1, row)) token := by
    rw [matching, scanned, horder, List.flatMap_append, List.filter_append]
    rfl
  rw [hsplit] at hplace
  have hmem : (item.1, other) ∈
      matching (ahead.flatMap fun item => item.2.map fun row => (item.1, row)) token :=
    List.mem_filter.mpr ⟨List.mem_flatMap.mpr ⟨item, hitem, List.mem_map_of_mem hother⟩, hmatch⟩
  have hfront := (List.mem_filter.mp (mem_front_of_argmin hplace hmem hle)).1
  obtain ⟨found, hfound, hrow⟩ := List.mem_flatMap.mp hfront
  obtain ⟨row, -, rfl⟩ := List.mem_map.mp hrow
  exact List.mem_map_of_mem hfound

/-- The first row of the chosen index does not match exactly where rows clash. -/
theorem clash_iff (hsound : Sound pending) (hdash : token.head? = some DASH)
    {wrong : PendingRow}
    (hfind : (rowsOf pending place.1).find? (fun row => row.index = place.2.index) = some wrong) :
    Clash pending token ↔ rowMatchesToken place.1 wrong.evr token = false := by
  obtain ⟨hscanned, hmatch⟩ := List.mem_filter.mp (List.argmin_mem hplace)
  obtain ⟨chosen, hchosen, hname, hrow⟩ := mem_scanned.mp hscanned
  have hrows : rowsOf pending place.1 = chosen.2 := by
    rw [hname]
    exact hsound.rowsOf_eq hchosen
  have hkeys : ((forIn pending).map Prod.fst).Nodup :=
    ((forIn_perm pending).map Prod.fst).nodup_iff.mpr hsound.keys
  constructor
  · rintro ⟨-, ahead, name, rows, behind, row, other, horder, hmem, hgood, hleast, hfirst, hother,
      hbad⟩
    have hpending : ∀ item ∈ ahead ++ (name, rows) :: behind, item ∈ pending := by
      intro item hitem
      rw [← horder, (forIn_perm pending).mem_iff] at hitem
      exact hitem
    have hnamed : (name, rows) ∈ pending := hpending _ (by simp)
    have hindex : place.2.index = row.index :=
      le_antisymm (least_le hplace hnamed hmem hgood)
        (hleast chosen hchosen place.2 hrow (hname ▸ hmatch))
    have hfront : place.1 ∈ (ahead ++ [(name, rows)]).map Prod.fst :=
      least_ahead hplace (horder.trans (List.append_cons _ _ _)) (List.mem_append_right ahead
        List.mem_cons_self) hmem hgood hindex.ge
    rw [List.map_append, List.mem_append, List.map_singleton, List.mem_singleton] at hfront
    rcases hfront with hahead | rfl
    · obtain ⟨found, hfound, hsame⟩ := List.mem_map.mp hahead
      have hfoundRows : found.2 = chosen.2 := by
        rw [← hrows, ← hsame]
        exact (hsound.rowsOf_eq (hpending found (by simp [hfound]))).symm
      exact absurd hindex (hfirst found hfound place.2 (hfoundRows ▸ hrow) (hsame ▸ hmatch))
    · rw [hsound.rowsOf_eq hnamed, hindex, hother] at hfind
      obtain rfl := Option.some.inj hfind
      exact hbad
  · intro hbad
    obtain ⟨ahead, behind, horder⟩ :=
      List.append_of_mem ((forIn_perm pending).mem_iff.mpr hchosen)
    refine ⟨hdash, ahead, chosen.1, chosen.2, behind, place.2, wrong, horder, hrow,
      hname ▸ hmatch, fun item hitem other hother hgood => least_le hplace hitem hother hgood,
      ?_, hrows ▸ hfind, hname ▸ hbad⟩
    intro item hitem other hother hgood hindex
    have hfront := least_ahead hplace horder hitem hother hgood hindex.le
    rw [horder, List.map_append, List.map_cons, List.nodup_append] at hkeys
    exact hkeys.2.2 _ hfront _ List.mem_cons_self hname

end

/-! ### The lookup -/

theorem takePendingRow_spec (hsound : Sound pending)
    (hown : HAS_OWN_PROPERTY ∉ Dict.keys pending) (htoken : token ≠ []) :
    ∃ index left, takePendingRow pending token = some (index, left) ∧
      (index = none ∧ left = pending ∨ ∃ name row, index = some row.index ∧
        Removes (rowsOf pending) name row (rowsOf left)) ∧
      (Takes token (rowsOf pending) index (rowsOf left) ↔
        ¬Shadowed pending token ∧ ¬Clash pending token) := by
  have hclash : candidates token ≠ [] → ¬Clash pending token :=
    fun h hclash => h (candidates_of_dash hclash.1)
  rcases @takeNamed_spec pending token hown (candidates token) false with
    ⟨name, row, left, htake, hremoves, hmatch, hname, hkey⟩ | ⟨htake, hrows⟩
  · refine ⟨some row.index, left, by simp [takePendingRow, htoken, htake],
      Or.inr ⟨name, row, rfl, hremoves⟩, ?_⟩
    refine iff_of_true (Takes.taken hremoves hmatch)
      ⟨fun hshadowed => ?_, hclash (List.ne_nil_of_mem hname)⟩
    obtain ⟨before, after, hbefore, -⟩ := hremoves
    have hnot := hshadowed.2.1 name hname row (by simp [hbefore])
    exact absurd hmatch (by simp [hnot])
  · rw [Bool.false_or] at htake
    by_cases hnamed : ∃ name ∈ candidates token, name ∈ Dict.keys pending
    · have hany : (candidates token).any (fun name => name ∈ Dict.keys pending) = true := by
        simpa using hnamed
      rw [hany] at htake
      obtain ⟨front, hfront, hpending⟩ := hnamed
      refine ⟨none, pending, by simp [takePendingRow, htoken, htake], Or.inl ⟨rfl, rfl⟩, ?_⟩
      rw [takes_none_iff]
      constructor
      · intro hnone
        refine ⟨fun hshadowed => ?_, hclash (List.ne_nil_of_mem hfront)⟩
        obtain ⟨name, hname, hcut⟩ := hshadowed.2.2
        obtain ⟨row, hrow⟩ := List.exists_mem_of_ne_nil _ (hsound.mem_keys.mp hname)
        have hmatch := @rowMatchesToken_of_cut name row.evr token htoken hcut
        exact absurd hmatch (by simp [hnone name row hrow])
      · rintro ⟨hshadowed, -⟩ name row hrow
        by_contra hmatch
        rw [Bool.not_eq_false] at hmatch
        have hdash : token.head? ≠ some DASH := fun h =>
          List.ne_nil_of_mem hfront (candidates_of_dash h)
        rcases candidate_of_matches hdash hmatch with hname | hcut
        · exact absurd hmatch (by simp [hrows name hname row hrow])
        · exact hshadowed ⟨⟨front, hfront, hpending⟩, hrows, name,
            hsound.mem_keys.mpr (List.ne_nil_of_mem hrow), hcut⟩
    · have hany : (candidates token).any (fun name => name ∈ Dict.keys pending) = false := by
        simpa using hnamed
      have hshadowed : ¬Shadowed pending token := fun h => hnamed h.1
      rw [hany] at htake
      cases hbest : (matching (scanned pending) token).argmin fun place => place.2.index with
      | none =>
          have hempty : matching (scanned pending) token = [] := List.argmin_eq_none.mp hbest
          have hscan : bestRow pending token = none := by rw [bestRow_eq, hbest]; rfl
          have hnone : ∀ item ∈ pending, ∀ row ∈ item.2,
              rowMatchesToken item.1 row.evr token = false := by
            intro item hitem row hrow
            simpa using List.filter_eq_nil_iff.mp hempty (item.1, row)
              (mem_scanned.mpr ⟨item, hitem, rfl, hrow⟩)
          refine ⟨none, pending, by simp [takePendingRow, htoken, htake, hown, hscan],
            Or.inl ⟨rfl, rfl⟩, iff_of_true (Takes.missed fun name row hrow => ?_)
              ⟨hshadowed, ?_⟩⟩
          · obtain ⟨item, hitem, rfl⟩ :=
              List.mem_map.mp (hsound.mem_keys.mpr (List.ne_nil_of_mem hrow))
            exact hnone item hitem row (hsound.rowsOf_eq hitem ▸ hrow)
          · rintro ⟨-, ahead, name, rows, behind, row, wrong, horder, hrow, hmatch, -⟩
            have hitem : (name, rows) ∈ pending :=
              (forIn_perm pending).mem_iff.mp (horder ▸ by simp)
            exact absurd hmatch (by simp [hnone _ hitem row hrow])
      | some place =>
          obtain ⟨hscanned, hmatch⟩ := List.mem_filter.mp (List.argmin_mem hbest)
          obtain ⟨item, hitem, hname, hrow⟩ := mem_scanned.mp hscanned
          have hmem : place.2 ∈ rowsOf pending place.1 := by
            rw [hname, hsound.rowsOf_eq hitem]
            exact hrow
          have hsome : ((rowsOf pending place.1).find? fun row =>
              row.index = place.2.index).isSome := by
            rw [List.find?_isSome]
            exact ⟨place.2, hmem, by simp⟩
          obtain ⟨wrong, hwrong⟩ := Option.isSome_iff_exists.mp hsome
          have hindex : wrong.index = place.2.index := by simpa using List.find?_some hwrong
          have hscan : bestRow pending token = some (place.1, place.2.index) := by
            rw [bestRow_eq, hbest]
            rfl
          have hremoves := removes_putRows hwrong
          refine ⟨some wrong.index, _, by simp [takePendingRow, htoken, htake, hown, hscan, hindex],
            Or.inr ⟨place.1, wrong, rfl, hremoves⟩, ?_⟩
          rw [takes_removed_iff hremoves]
          by_cases hdash : token.head? = some DASH
          · rw [clash_iff hbest hsound hdash hwrong, Bool.not_eq_false]
            exact ⟨fun h => ⟨hshadowed, h⟩, fun h => h.2⟩
          · refine iff_of_true ?_ ⟨hshadowed, fun h => hdash h.1⟩
            have hkey : place.1 ∈ Dict.keys pending :=
              hsound.mem_keys.mpr (List.ne_nil_of_mem hmem)
            rcases candidate_of_matches hdash hmatch with hfront | hcut
            · exact absurd ⟨place.1, hfront, hkey⟩ hnamed
            · exact rowMatchesToken_of_cut htoken hcut

/-- Only the table's own names are looked at, and empty tokens are not. -/
theorem takePendingRow_hasOwn (hown : HAS_OWN_PROPERTY ∈ Dict.keys pending) (htoken : token ≠ []) :
    takePendingRow pending token = none := by
  cases hnames : candidates token with
  | nil => simp [takePendingRow, htoken, hnames, takeNamed, hown]
  | cons name names => simp [takePendingRow, htoken, hnames, takeNamed, hasOwn, hown]

theorem proto_of_agrees (hrows : ∀ name, rowsOf pending name =
    if name = PROTO then [] else added calls name)
    {index : Option ℕ} {left : Pending}
    (hleft : index = none ∧ left = pending ∨ ∃ name row, index = some row.index ∧
      Removes (rowsOf pending) name row (rowsOf left))
    (h : Takes token (added calls) index (rowsOf left)) : added calls PROTO = [] := by
  have hproto : rowsOf pending PROTO = [] := (hrows PROTO).trans (if_pos rfl)
  rcases hleft with ⟨rfl, rfl⟩ | ⟨name, row, rfl, before, after, hname, hgone⟩
  · rw [← h.none_eq.1, hproto]
  · have hne : name ≠ PROTO := by
      rintro rfl
      simp [hproto] at hname
    have hat : (rowsOf left name).length < (added calls name).length := by
      have hadded : rowsOf pending name = added calls name := (hrows name).trans (if_neg hne)
      rw [hgone, Function.update_self, ← hadded, hname]
      simp
    generalize hindex : some row.index = index at h
    generalize hsame : rowsOf left = rows at h hat
    cases h with
    | missed => cases hindex
    | @taken other _ _ hremoves =>
        obtain ⟨front, back, -, hrest⟩ := hremoves
        have hother : name = other := by
          by_contra hdiff
          rw [hrest, Function.update_of_ne hdiff] at hat
          omega
        subst hother
        have hfront := congrFun hrest PROTO
        rw [Function.update_of_ne hne.symm, ← hsame, hgone, Function.update_of_ne hne.symm,
          hproto] at hfront
        exact hfront.symm

/-- The lookup agrees with the scan, but for names the table cannot hold, a
token cut inside a name behind a shorter pending one, and repeated indexes. -/
theorem takePendingRow_agrees {table : Pending} (hbuilt : addRows calls [] = some table) :
    Agrees calls token (takePendingRow table token) ↔
      (∀ call ∈ calls, call.name ≠ PROTO) ∧
        (token = [] ∨ (∀ call ∈ calls, call.name ≠ HAS_OWN_PROPERTY) ∧
          ¬Shadowed table token ∧ ¬Clash table token) := by
  have hempty : Sound [] := ⟨List.nodup_nil, by simp⟩
  obtain ⟨hsound, hrows⟩ := addRows_spec hempty hbuilt
  have hnil : ∀ name, rowsOf ([] : Pending) name = [] := fun _ => rfl
  simp only [hnil, List.nil_append] at hrows
  have hsame : (∀ call ∈ calls, call.name ≠ PROTO) → rowsOf table = added calls := by
    intro hproto
    funext name
    rw [hrows]
    split_ifs with hname
    · rw [hname, added_eq_nil.mpr hproto]
    · rfl
  have hown : HAS_OWN_PROPERTY ∉ Dict.keys table ↔
      ∀ call ∈ calls, call.name ≠ HAS_OWN_PROPERTY := by
    rw [hsound.mem_keys, not_not, hrows, if_neg (by decide), added_eq_nil]
  by_cases htoken : token = []
  · have hanswer : takePendingRow table token = some (none, table) := if_pos htoken
    rw [hanswer]
    simp only [htoken, true_or, and_true]
    constructor
    · rintro ⟨index, left, hleft, htakes⟩
      obtain ⟨rfl, rfl⟩ := Prod.mk.inj (Option.some.inj hleft)
      exact added_eq_nil.mp (proto_of_agrees hrows (Or.inl ⟨rfl, rfl⟩) htakes)
    · intro hproto
      refine ⟨none, table, rfl, ?_⟩
      rw [hsame hproto, takes_none_iff]
      exact fun _ _ _ => if_pos rfl
  · by_cases hhas : HAS_OWN_PROPERTY ∈ Dict.keys table
    · rw [takePendingRow_hasOwn hhas htoken]
      refine iff_of_false ?_ fun h => ?_
      · rintro ⟨_, _, h, -⟩
        cases h
      · rcases h.2 with hempty | ⟨hfree, -⟩
        · exact htoken hempty
        · exact hown.mpr hfree hhas
    · obtain ⟨index, left, hanswer, hleft, htakes⟩ := takePendingRow_spec hsound hhas htoken
      rw [hanswer]
      constructor
      · rintro ⟨other, rest, hrest, hagrees⟩
        obtain ⟨rfl, rfl⟩ := Prod.mk.inj (Option.some.inj hrest)
        have hproto := added_eq_nil.mp (proto_of_agrees hrows hleft hagrees)
        rw [← hsame hproto] at hagrees
        exact ⟨hproto, Or.inr ⟨hown.mp hhas, htakes.mp hagrees⟩⟩
      · rintro ⟨hproto, hempty | ⟨-, hfree⟩⟩
        · exact absurd hempty htoken
        · exact ⟨index, left, rfl, hsame hproto ▸ htakes.mpr hfree⟩

/-! ### Two packages -/

def lessCalls : List PendingCall :=
  [⟨ascii "less", ascii "704-1", 0⟩, ⟨ascii "less-color", ascii "704-1", 1⟩]

def lessTable : Pending :=
  [(ascii "less", [⟨0, ascii "704-1"⟩]), (ascii "less-color", [⟨1, ascii "704-1"⟩])]

theorem lessTable_built : addRows lessCalls [] = some lessTable := by decide

theorem takePendingRow_agrees_less :
    Agrees lessCalls (ascii "less-704-1.x86")
      (takePendingRow lessTable (ascii "less-704-1.x86")) := by
  refine (takePendingRow_agrees lessTable_built).mpr
    ⟨by decide, Or.inr ⟨by decide, fun hshadowed => ?_, fun hclash => ?_⟩⟩
  · exact absurd (hshadowed.2.1 (ascii "less") (by decide) ⟨0, ascii "704-1"⟩ (by decide))
      (by decide)
  · exact absurd hclash.1 (by decide)

/-- A token cut inside `less-color` finds nothing while `less` is pending. -/
theorem less_shadows : ¬∀ calls token table, addRows calls [] = some table →
    Agrees calls token (takePendingRow table token) := by
  intro hall
  obtain ⟨index, left, hanswer, htakes⟩ :=
    hall lessCalls (ascii "less-co") lessTable lessTable_built
  have hnone : takePendingRow lessTable (ascii "less-co") = some (none, lessTable) := by decide
  obtain ⟨rfl, rfl⟩ := Prod.mk.inj (Option.some.inj (hanswer.symm.trans hnone))
  exact absurd (htakes.none_eq.2 (ascii "less-color") ⟨1, ascii "704-1"⟩ (by decide)) (by decide)

end Updates

end CybexOS
