import RealtimeNotify.Lib.Keyset

/-!
# Paging by the last key

A page is at most `limit` rows beyond a cursor, and the cursor of the next page
is the key of its last row. Rows of that key that the page had no room for are
never seen again; `pages_perm_iff` says that these are all the rows a walk can
lose.
-/

namespace RealtimeNotify.Lib

/-! ## Page breaks -/

section

variable {ρ α : Type*}

/-- A page that is not full is the last one. -/
def nextCursor (key : ρ → α) (limit : Nat) (page : List ρ) : Option α :=
  if page.length = limit then page.getLast?.map key else none

/-- No page of `limit` keys ends between two equal ones. -/
def CleanBreaks (limit : Nat) (ks : List α) : Prop :=
  ∀ k, 0 < k → k * limit < ks.length → ks[k * limit - 1]? ≠ ks[k * limit]?

theorem cleanBreaks_of_length_le {limit : Nat} {ks : List α} (h : ks.length ≤ limit) :
    CleanBreaks limit ks := by
  intro k hk hlt
  have := Nat.le_mul_of_pos_left limit hk
  omega

/-- The breaks are the first one and those of what is left. -/
theorem cleanBreaks_iff {limit : Nat} {ks : List α} (hpos : 0 < limit) :
    CleanBreaks limit ks ↔ (limit < ks.length → ks[limit - 1]? ≠ ks[limit]?) ∧
      CleanBreaks limit (ks.drop limit) := by
  have hnext : ∀ k, (k + 1) * limit = limit + k * limit := by
    intro k
    rw [Nat.succ_mul, Nat.add_comm]
  have hshift : ∀ k, 0 < k → limit + (k * limit - 1) = (k + 1) * limit - 1 := by
    intro k hk
    have := Nat.mul_pos hk hpos
    rw [Nat.succ_mul]
    omega
  constructor
  · intro h
    refine ⟨fun hlt => by simpa using h 1 Nat.one_pos (by simpa using hlt), fun k hk hlt => ?_⟩
    rw [List.length_drop] at hlt
    rw [List.getElem?_drop, List.getElem?_drop, hshift k hk, ← hnext]
    exact h (k + 1) (Nat.succ_pos k) (by rw [Nat.succ_mul]; omega)
  · rintro ⟨hfirst, hrest⟩ k hk hlt
    obtain ⟨k, rfl⟩ := Nat.exists_eq_succ_of_ne_zero (Nat.pos_iff_ne_zero.mp hk)
    cases k with
    | zero => simpa using hfirst (by simpa using hlt)
    | succ k =>
      have := hrest (k + 1) (Nat.succ_pos k)
        (by rw [List.length_drop]; rw [Nat.succ_mul] at hlt; omega)
      rwa [List.getElem?_drop, List.getElem?_drop, hshift _ (Nat.succ_pos k), ← hnext] at this

theorem cleanBreaks_map {β : Type*} {f : α → β} (hf : Function.Injective f) {limit : Nat}
    {ks : List α} : CleanBreaks limit (ks.map f) ↔ CleanBreaks limit ks := by
  have hf' := Option.map_injective hf
  simp only [CleanBreaks, List.length_map, List.getElem?_map, hf'.ne_iff]

theorem nextCursor_eq_some {key : ρ → α} {limit : Nat} {p : List ρ} {c : α}
    (h : nextCursor key limit p = some c) :
    p.length = limit ∧ ∃ r, p.getLast? = some r ∧ key r = c := by
  unfold nextCursor at h
  split at h
  · rename_i hlen
    exact ⟨hlen, Option.map_eq_some_iff.mp h⟩
  · cases h

theorem nextCursor_eq_none {key : ρ → α} {limit : Nat} {p : List ρ} (hpos : 0 < limit)
    (h : nextCursor key limit p = none) : p.length ≠ limit := by
  rintro rfl
  rw [nextCursor, if_pos rfl, Option.map_eq_none_iff, List.getLast?_eq_none_iff] at h
  simp [h] at hpos

end

/-! ## Pages -/

variable {ρ κ : Type*} [LinearOrder κ]

/-- The rows strictly beyond the cursor. -/
def beyond (key : ρ → κ) (cursor : Option κ) (rows : List ρ) : List ρ :=
  rows.filter fun r => cursor.all fun c => c < key r

def page (key : ρ → κ) (tie : ρ → Nat) (limit : Nat) (cursor : Option κ) (rows : List ρ) :
    List ρ :=
  (orderBy key tie (beyond key cursor rows)).take limit

/-- The pages from a cursor on, `none` if more than `fuel` of them are needed.
Ties fall anew on every page. -/
def pages (key : ρ → κ) (ties : Nat → ρ → Nat) (limit : Nat) (rows : List ρ) :
    (fuel : Nat) → Option κ → Option (List (List ρ))
  | 0, _ => none
  | fuel + 1, cursor =>
      let p := page key (ties fuel) limit cursor rows
      match nextCursor key limit p with
      | none => some [p]
      | some c => (pages key ties limit rows fuel (some c)).map (p :: ·)

variable {key : ρ → κ} {tie : ρ → Nat} {ties : Nat → ρ → Nat} {rows : List ρ} {limit : Nat}
  {cursor : Option κ} {last : ρ}

/-- What lies beyond a row of the remainder is part of the remainder. -/
theorem beyond_beyond (hlast : last ∈ beyond key cursor rows) :
    beyond key (some (key last)) rows
      = (beyond key cursor rows).filter fun r => key last < key r := by
  rw [beyond, beyond, List.filter_filter]
  refine List.filter_congr fun r _ => ?_
  have hc := (List.mem_filter.mp hlast).2
  cases cursor with
  | none => simp
  | some c =>
    have hlt : c < key last := by simpa using hc
    by_cases h : key last < key r
    · simp [h, hlt.trans h]
    · simp [h]

/-- The last row of a page is its greatest. -/
theorem le_last {p : List ρ} (hsorted : p.Pairwise (key · ≤ key ·)) (hlast : p.getLast? = some last)
    {r : ρ} (hr : r ∈ p) : key r ≤ key last := by
  obtain ⟨init, rfl⟩ := List.getLast?_eq_some_iff.mp hlast
  rcases List.mem_append.mp hr with hr | hr
  · exact (List.pairwise_append.mp hsorted).2.2 r hr last (List.mem_singleton_self _)
  · rw [List.mem_singleton.mp hr]

/-- After a full page: the rows that did not fit, without those that tie with
its last row. -/
theorem beyond_last (h : (page key tie limit cursor rows).getLast? = some last) :
    (beyond key (some (key last)) rows).Perm
      (((orderBy key tie (beyond key cursor rows)).drop limit).filter
        fun r => key last < key r) := by
  have hmem := List.mem_of_getLast? h
  have hbeyond : last ∈ beyond key cursor rows := mem_orderBy.mp (List.mem_of_mem_take hmem)
  rw [beyond_beyond hbeyond]
  have hperm : (orderBy key tie (beyond key cursor rows)).Perm (beyond key cursor rows) :=
    orderBy_perm
  refine (hperm.symm.filter _).trans ?_
  -- nothing on the page is beyond its last row
  have hpage : ((orderBy key tie (beyond key cursor rows)).take limit).filter
      (fun r => key last < key r) = [] := by
    rw [List.filter_eq_nil_iff]
    intro r hr
    have hsorted : ((orderBy key tie (beyond key cursor rows)).take limit).Pairwise
        (key · ≤ key ·) := orderBy_sorted.sublist (List.take_sublist limit _)
    rw [decide_eq_true_eq, not_lt]
    exact le_last hsorted h hr
  have hsplit := List.take_append_drop limit (orderBy key tie (beyond key cursor rows))
  rw [← hsplit, List.filter_append, hpage, List.nil_append, hsplit]

/-- The break after the first `limit` rows of a sorted list is clean iff all rows
behind it are beyond the last one before it. -/
theorem forall_mem_drop_iff {l : List ρ} (hsorted : l.Pairwise (key · ≤ key ·))
    (hpos : 0 < limit) (hlast : l[limit - 1]? = some last) :
    (∀ r ∈ l.drop limit, key last < key r) ↔
      (limit < (l.map key).length → (l.map key)[limit - 1]? ≠ (l.map key)[limit]?) := by
  have hdrop : (l.drop limit).Pairwise (key · ≤ key ·) := hsorted.sublist (List.drop_sublist _ _)
  have hbefore : ∀ r ∈ l.drop limit, key last ≤ key r := by
    rw [← List.take_append_drop limit l] at hsorted
    have hmem : last ∈ l.take limit := by
      refine List.mem_of_getElem? (i := limit - 1) ?_
      rwa [List.getElem?_take_of_lt (by omega)]
    exact (List.pairwise_append.mp hsorted).2.2 last hmem
  rw [List.getElem?_map, List.getElem?_map, hlast, List.length_map]
  constructor
  · intro h hlt heq
    have hmem : l[limit] ∈ l.drop limit := by
      rw [List.drop_eq_getElem_cons hlt]
      exact List.mem_cons_self
    have hne := h _ hmem
    rw [List.getElem?_eq_getElem hlt] at heq
    exact hne.ne (Option.some.inj heq)
  · intro h r hr
    have hlt : limit < l.length := by
      by_contra hge
      rw [List.drop_eq_nil_of_le (by omega)] at hr
      cases hr
    have hne := h hlt
    rw [List.getElem?_eq_getElem hlt] at hne
    rw [List.drop_eq_getElem_cons hlt] at hr hbefore hdrop
    have hfirst : key last < key l[limit] :=
      (hbefore _ List.mem_cons_self).lt_of_ne fun heq => hne (congrArg some heq)
    rcases List.mem_cons.mp hr with rfl | hr
    · exact hfirst
    · exact hfirst.trans_le ((List.pairwise_cons.mp hdrop).1 r hr)

/-- The remainder behind a full page is what did not fit, short of the rows that
tie with its last one; nothing falls away iff the break is clean. -/
theorem beyond_of_full (hlen : (page key tie limit cursor rows).length = limit)
    (hpos : 0 < limit) (h : (page key tie limit cursor rows).getLast? = some last) :
    (beyond key (some (key last)) rows).length + limit ≤ (beyond key cursor rows).length ∧
      ((beyond key (some (key last)) rows).length + limit = (beyond key cursor rows).length ↔
        (limit < (keys key (beyond key cursor rows)).length →
          (keys key (beyond key cursor rows))[limit - 1]?
            ≠ (keys key (beyond key cursor rows))[limit]?)) ∧
      ((beyond key (some (key last)) rows).length + limit = (beyond key cursor rows).length →
        keys key (beyond key (some (key last)) rows)
          = (keys key (beyond key cursor rows)).drop limit) := by
  have hperm := beyond_last h
  have hkeys : keys key (beyond key cursor rows)
      = (orderBy key tie (beyond key cursor rows)).map key :=
    keys_of_sorted orderBy_perm orderBy_sorted
  have hrest : (beyond key cursor rows).length
      = ((orderBy key tie (beyond key cursor rows)).drop limit).length + limit := by
    rw [page, List.length_take, orderBy_length] at hlen
    rw [List.length_drop, orderBy_length]
    omega
  have hfirst : (orderBy key tie (beyond key cursor rows))[limit - 1]? = some last := by
    rwa [List.getLast?_eq_getElem?, hlen, page, List.getElem?_take_of_lt (by omega)] at h
  have hsorted : (orderBy key tie (beyond key cursor rows)).Pairwise (key · ≤ key ·) :=
    orderBy_sorted
  rw [hkeys, hrest, hperm.length_eq, ← forall_mem_drop_iff hsorted hpos hfirst]
  generalize orderBy key tie (beyond key cursor rows) = l at hperm hsorted
  refine ⟨Nat.add_le_add_right (List.length_filter_le _ _) _, ?_, fun heq => ?_⟩
  · rw [Nat.add_right_cancel_iff, List.length_filter_eq_length_iff]
    simp only [decide_eq_true_eq]
  · have hall := List.length_filter_eq_length_iff.mp (Nat.add_right_cancel heq)
    rw [List.filter_eq_self.mpr hall] at hperm
    rw [← List.map_drop]
    exact keys_of_sorted hperm.symm (hsorted.sublist (List.drop_sublist _ _))

/-! ## Walks -/

theorem pages_last {fuel : Nat}
    (h : nextCursor key limit (page key (ties fuel) limit cursor rows) = none) :
    pages key ties limit rows (fuel + 1) cursor
      = some [page key (ties fuel) limit cursor rows] := by
  rw [pages, h]

theorem pages_more {fuel : Nat} {c : κ}
    (h : nextCursor key limit (page key (ties fuel) limit cursor rows) = some c) :
    pages key ties limit rows (fuel + 1) cursor
      = (pages key ties limit rows fuel (some c)).map
          (page key (ties fuel) limit cursor rows :: ·) := by
  rw [pages, h]

/-- A walk ends with its first page, or goes on from the last row of a full one. -/
theorem pages_cases {fuel : Nat} {ps : List (List ρ)}
    (h : pages key ties limit rows (fuel + 1) cursor = some ps) :
    (nextCursor key limit (page key (ties fuel) limit cursor rows) = none ∧
      ps = [page key (ties fuel) limit cursor rows]) ∨
    ∃ last qs, (page key (ties fuel) limit cursor rows).length = limit ∧
      (page key (ties fuel) limit cursor rows).getLast? = some last ∧
      pages key ties limit rows fuel (some (key last)) = some qs ∧
      ps = page key (ties fuel) limit cursor rows :: qs := by
  cases hnext : nextCursor key limit (page key (ties fuel) limit cursor rows) with
  | none =>
    rw [pages_last hnext, Option.some.injEq] at h
    exact .inl ⟨rfl, h.symm⟩
  | some c =>
    obtain ⟨hlen, last, hlast, rfl⟩ := nextCursor_eq_some hnext
    rw [pages_more hnext, Option.map_eq_some_iff] at h
    obtain ⟨qs, hqs, rfl⟩ := h
    exact .inr ⟨last, qs, hlen, hlast, hqs, rfl⟩

/-- Enough requests reach a page that is not full. -/
theorem pages_isSome (hpos : 0 < limit) {fuel : Nat}
    (hfuel : (beyond key cursor rows).length < fuel) :
    ∃ ps, pages key ties limit rows fuel cursor = some ps := by
  induction fuel generalizing cursor with
  | zero => omega
  | succ fuel ih =>
    cases hnext : nextCursor key limit (page key (ties fuel) limit cursor rows) with
    | none => exact ⟨_, pages_last hnext⟩
    | some c =>
      obtain ⟨hlen, last, hlast, rfl⟩ := nextCursor_eq_some hnext
      have hle := (beyond_of_full hlen hpos hlast).1
      obtain ⟨ps, hps⟩ : ∃ ps, pages key ties limit rows fuel (some (key last)) = some ps :=
        ih (by omega)
      exact ⟨_, by rw [pages_more hnext, hps]; rfl⟩

/-- A walk sees as many rows as lie beyond the cursor iff every break is clean,
and else fewer. -/
theorem pages_length (hpos : 0 < limit) {fuel : Nat} {ps : List (List ρ)}
    (h : pages key ties limit rows fuel cursor = some ps) :
    ps.flatten.length ≤ (beyond key cursor rows).length ∧
      (ps.flatten.length = (beyond key cursor rows).length ↔
        CleanBreaks limit (keys key (beyond key cursor rows))) := by
  induction fuel generalizing cursor ps with
  | zero => cases h
  | succ fuel ih =>
    rcases pages_cases h with ⟨hnext, rfl⟩ | ⟨last, qs, hlen, hlast, hqs, rfl⟩
    · have hshort := nextCursor_eq_none hpos hnext
      rw [page, List.length_take, orderBy_length] at hshort
      have hlen : [page key (ties fuel) limit cursor rows].flatten.length
          = (beyond key cursor rows).length := by
        rw [List.flatten_singleton, page, List.length_take, orderBy_length]
        omega
      refine ⟨hlen.le, fun _ => cleanBreaks_of_length_le ?_, fun _ => hlen⟩
      rw [keys_length]
      omega
    · obtain ⟨hle, hclean, hkeys⟩ := beyond_of_full hlen hpos hlast
      obtain ⟨hle', hclean'⟩ := ih hqs
      rw [List.flatten_cons, List.length_append, hlen, cleanBreaks_iff hpos, ← hclean]
      refine ⟨by omega, fun heq => ?_, fun ⟨heq, hrest⟩ => ?_⟩
      · have hfull : (beyond key (some (key last)) rows).length + limit
            = (beyond key cursor rows).length := by omega
        refine ⟨hfull, ?_⟩
        rw [← hkeys hfull, ← hclean']
        omega
      · rw [← hkeys heq, ← hclean'] at hrest
        omega

/-- A walk sees a row at most as often as it is stored. -/
theorem pages_subperm {fuel : Nat} {ps : List (List ρ)}
    (h : pages key ties limit rows fuel cursor = some ps) :
    ps.flatten.Subperm (beyond key cursor rows) := by
  induction fuel generalizing cursor ps with
  | zero => cases h
  | succ fuel ih =>
    rcases pages_cases h with ⟨-, rfl⟩ | ⟨last, qs, -, hlast, hqs, rfl⟩
    · rw [List.flatten_singleton]
      exact (List.take_sublist _ _).subperm.trans orderBy_perm.subperm
    · have hrest := (ih hqs).trans (beyond_last hlast).subperm
      have hboth := (List.subperm_append_left (page key (ties fuel) limit cursor rows)).mpr
        (hrest.trans List.filter_sublist.subperm)
      rw [page, List.take_append_drop] at hboth
      rw [List.flatten_cons]
      exact hboth.trans orderBy_perm.subperm

/-- A walk over rows without repetition sees them all iff every break is clean. -/
theorem pages_complete_iff (hpos : 0 < limit) (hrows : rows.Nodup) {fuel : Nat}
    {ps : List (List ρ)} (h : pages key ties limit rows fuel none = some ps) :
    (∀ r ∈ rows, r ∈ ps.flatten) ↔ CleanBreaks limit (keys key rows) := by
  have hall : beyond key none rows = rows := List.filter_eq_self.mpr fun _ _ => rfl
  have hsub := pages_subperm h
  have hclean := (pages_length hpos h).2
  rw [hall] at hsub hclean
  rw [← hclean]
  constructor
  · intro hmem
    exact Nat.le_antisymm hsub.length_le (List.subperm_of_subset hrows hmem).length_le
  · intro hlen r hr
    exact (hsub.perm_of_length_le hlen.ge).mem_iff.mpr hr

/-! ## Walks over rows that change -/

/-- The pages of a walk whose requests find other rows each, with other ties. It
stops short of its last page if the requests run out. -/
def walk (key : ρ → κ) (limit : Nat) : (tables : List ((ρ → Nat) × List ρ)) → Option κ →
    List (List ρ)
  | [], _ => []
  | (tie, rows) :: tables, cursor =>
      let p := page key tie limit cursor rows
      p :: match nextCursor key limit p with
        | none => []
        | some c => walk key limit tables (some c)

variable {tables : List ((ρ → Nat) × List ρ)}

theorem mem_page {r : ρ} (h : r ∈ page key tie limit cursor rows) :
    r ∈ rows ∧ cursor.all (fun c => c < key r) = true :=
  List.mem_filter.mp (mem_orderBy.mp (List.mem_of_mem_take h))

theorem page_sorted : (page key tie limit cursor rows).Pairwise (key · ≤ key ·) :=
  orderBy_sorted.sublist (List.take_sublist _ _)

/-- A walk is one page without a cursor, or goes on from the last row of a full one. -/
theorem walk_cases (key : ρ → κ) (limit : Nat) (tie : ρ → Nat) (rows : List ρ)
    (tables : List ((ρ → Nat) × List ρ)) (cursor : Option κ) :
    nextCursor key limit (page key tie limit cursor rows) = none ∧
      walk key limit ((tie, rows) :: tables) cursor = [page key tie limit cursor rows] ∨
    ∃ last, (page key tie limit cursor rows).length = limit ∧
      (page key tie limit cursor rows).getLast? = some last ∧
      walk key limit ((tie, rows) :: tables) cursor
        = page key tie limit cursor rows :: walk key limit tables (some (key last)) := by
  rw [walk]
  cases hnext : nextCursor key limit (page key tie limit cursor rows) with
  | none => exact .inl ⟨rfl, rfl⟩
  | some c =>
    obtain ⟨hlen, last, hlast, rfl⟩ := nextCursor_eq_some hnext
    exact .inr ⟨last, hlen, hlast, rfl⟩

/-- Every page answers one of the requests, from a cursor no earlier than the first. -/
theorem page_of_mem_walk {p : List ρ} (hp : p ∈ walk key limit tables cursor) :
    ∃ t ∈ tables, ∃ c, p = page key t.1 limit c t.2 ∧
      ∀ k, c.all (· < k) = true → cursor.all (· < k) = true := by
  induction tables generalizing cursor with
  | nil => cases hp
  | cons t tables ih =>
    obtain ⟨tie, rows⟩ := t
    rcases walk_cases key limit tie rows tables cursor with ⟨-, heq⟩ | ⟨last, -, hlast, heq⟩
    · rw [heq, List.mem_singleton] at hp
      exact ⟨_, List.mem_cons_self, cursor, hp, fun _ h => h⟩
    · rw [heq, List.mem_cons] at hp
      rcases hp with rfl | hp
      · exact ⟨_, List.mem_cons_self, cursor, rfl, fun _ h => h⟩
      · obtain ⟨t, ht, c, rfl, hlater⟩ := ih hp
        refine ⟨t, List.mem_cons_of_mem _ ht, c, rfl, fun k hk => ?_⟩
        have hcursor := (mem_page (List.mem_of_getLast? hlast)).2
        have hlt : key last < k := by simpa using hlater k hk
        cases cursor with
        | none => rfl
        | some c =>
          rw [Option.all_some, decide_eq_true_eq] at hcursor ⊢
          exact hcursor.trans hlt

/-- Every row on a page was there at its request, beyond the cursor that the walk
started from. -/
theorem mem_walk {p : List ρ} {r : ρ} (hp : p ∈ walk key limit tables cursor) (hr : r ∈ p) :
    (∃ t ∈ tables, r ∈ t.2) ∧ cursor.all (fun c => c < key r) = true := by
  obtain ⟨t, ht, c, rfl, hlater⟩ := page_of_mem_walk hp
  obtain ⟨hmem, hbeyond⟩ := mem_page hr
  exact ⟨⟨t, ht, hmem⟩, hlater _ hbeyond⟩

/-- Whatever happens to the rows, each page lies beyond those before it. -/
theorem walk_ascends (key : ρ → κ) : (walk key limit tables cursor).Pairwise fun p q =>
    ∀ r ∈ p, ∀ s ∈ q, key r < key s := by
  induction tables generalizing cursor with
  | nil => exact .nil
  | cons t tables ih =>
    obtain ⟨tie, rows⟩ := t
    rcases walk_cases key limit tie rows tables cursor with ⟨-, heq⟩ | ⟨last, -, hlast, heq⟩
    · rw [heq]
      exact List.pairwise_singleton _ _
    · rw [heq, List.pairwise_cons]
      refine ⟨fun q hq r hr s hs => ?_, ih⟩
      have hbeyond := (mem_walk hq hs).2
      exact (le_last page_sorted hlast hr).trans_lt (by simpa using hbeyond)

theorem walk_sorted (key : ρ → κ) :
    (walk key limit tables cursor).flatten.Pairwise (key · ≤ key ·) := by
  rw [List.pairwise_flatten]
  refine ⟨fun p hp => ?_, (walk_ascends key).imp fun h r hr s hs => (h r hr s hs).le⟩
  obtain ⟨t, -, c, rfl, -⟩ := page_of_mem_walk hp
  exact page_sorted

/-- If no identity changes its key, no identity comes twice. -/
theorem walk_nodup {ι : Type*} {ident : ρ → ι} (hrows : ∀ t ∈ tables, (t.2.map ident).Nodup)
    (hkeys : ∀ t ∈ tables, ∀ t' ∈ tables, ∀ r ∈ t.2, ∀ s ∈ t'.2,
      ident r = ident s → key r = key s) :
    ((walk key limit tables cursor).flatten.map ident).Nodup := by
  rw [List.Nodup, List.pairwise_map, List.pairwise_flatten]
  constructor
  · intro p hp
    obtain ⟨t, ht, c, rfl, -⟩ := page_of_mem_walk hp
    have hids : ((orderBy key t.1 (beyond key c t.2)).map ident).Nodup :=
      (orderBy_perm.map ident).nodup_iff.mpr ((hrows t ht).sublist (List.filter_sublist.map _))
    exact List.pairwise_map.mp (hids.sublist ((List.take_sublist limit _).map ident))
  · refine (walk_ascends key).imp_of_mem fun hp hq h r hr s hs heq => ?_
    obtain ⟨⟨t, ht, hrt⟩, -⟩ := mem_walk hp hr
    obtain ⟨⟨t', ht', hst⟩, -⟩ := mem_walk hq hs
    exact (h r hr s hs).ne (hkeys t ht t' ht' r hrt s hst heq)

/-! ### The end of a walk -/

/-- How many of the keys lie beyond a cursor. -/
def ahead (cursor : Option κ) (ks : List κ) : Nat := ks.countP fun k => cursor.all (· < k)

theorem beyond_length (rows : List ρ) :
    (beyond key cursor rows).length = ahead cursor (rows.map key) := by
  rw [ahead, List.countP_map, List.countP_eq_length_filter]
  rfl

/-- While the keys stay, a walk takes at most one request for each full page and
one more, and is at its end by then. -/
theorem walk_ends (cursor : Option κ) (hpos : 0 < limit) {ks : List κ}
    (hkeys : ∀ t ∈ tables, (t.2.map key).Perm ks) :
    (walk key limit tables cursor).length ≤ ahead cursor ks / limit + 1 ∧
      (ahead cursor ks / limit < tables.length →
        ∃ p, (walk key limit tables cursor).getLast? = some p ∧ nextCursor key limit p = none) := by
  induction tables generalizing cursor with
  | nil => exact ⟨Nat.zero_le _, fun h => absurd h (Nat.not_lt_zero _)⟩
  | cons t tables ih =>
    obtain ⟨tie, rows⟩ := t
    rcases walk_cases key limit tie rows tables cursor with
      ⟨hnext, heq⟩ | ⟨last, hlen, hlast, heq⟩
    · rw [heq]
      exact ⟨Nat.le_add_left 1 _, fun _ => ⟨_, rfl, hnext⟩⟩
    · have hrows := hkeys _ List.mem_cons_self
      have hfull := (beyond_of_full hlen hpos hlast).1
      rw [beyond_length, beyond_length, ahead, ahead, hrows.countP_eq, hrows.countP_eq,
        ← ahead, ← ahead] at hfull
      -- a full page is one request, and `limit` rows fewer are left
      have hstep : ahead (some (key last)) ks / limit + 1 ≤ ahead cursor ks / limit := by
        rw [← Nat.add_div_right _ hpos]
        exact Nat.div_le_div_right hfull
      obtain ⟨hcount, hend⟩ := ih (some (key last))
        fun t ht => hkeys t (List.mem_cons_of_mem _ ht)
      rw [heq, List.length_cons, List.length_cons]
      refine ⟨by omega, fun hlt => ?_⟩
      obtain ⟨p, hp, hnone⟩ := hend (by omega)
      exact ⟨p, by rw [List.getLast?_cons, hp]; rfl, hnone⟩

end RealtimeNotify.Lib
