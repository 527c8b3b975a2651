import Findings.Proofs.Collect

/-!
# Rearranged findings

In which packages and lists the findings of an analyzer stand, and in which order, decides which
check of `Diagnostics.ofPayload` is made first, but not whether all of them pass. Of two payloads
with the same findings:

* either both give the same map or both fail (`ok_or_error_of_perm`);
* if just two of the findings are on one line, and all positions can be read, both fail for that
  line and name the same two messages (`collides_of_onlyPair`). Which of the two was there before
  the other depends on the order.

Route. That two findings and no others are on one line is said by their places in the list
(`OnlyPair`). Without the second of them no line is repeated (`OnlyPair.pairwise_eraseIdx`), so at
the line in question there are two entries, and every other line has one at most
(`perm_pair_of_filter`).
-/

set_option autoImplicit false

namespace Findings.Diagnostics

/-- The findings are on one line. -/
def SameLine (d d' : Finding) : Prop := Position.ofPosn d.posn = Position.ofPosn d'.posn

instance (d d' : Finding) : Decidable (SameLine d d') :=
  inferInstanceAs (Decidable (Position.ofPosn d.posn = Position.ofPosn d'.posn))

/-- The `i`th finding and the `j`th are on one line, and no other two are. -/
structure OnlyPair (ds : List Finding) (i j : Fin ds.length) : Prop where
  lt : i < j
  sameLine_iff : ∀ k l : Fin ds.length, k < l → (SameLine ds[k] ds[l] ↔ k = i ∧ l = j)

instance (ds : List Finding) (i j : Fin ds.length) : Decidable (OnlyPair ds i j) :=
  decidable_of_iff (i < j ∧ ∀ k l : Fin ds.length, k < l → (SameLine ds[k] ds[l] ↔ k = i ∧ l = j))
    ⟨fun h => ⟨h.1, h.2⟩, fun h => ⟨h.lt, h.sameLine_iff⟩⟩

section
variable {ds : List Finding} {i j : Fin ds.length}

/-! ## Two findings on one line -/

theorem OnlyPair.sameLine (h : OnlyPair ds i j) : SameLine ds[i] ds[j] :=
  (h.sameLine_iff i j h.lt).2 ⟨rfl, rfl⟩

/-- The second of the two is put in front. -/
theorem perm_cons_eraseIdx (ds : List Finding) (j : Fin ds.length) :
    ds.Perm (ds[j] :: ds.eraseIdx j) := by
  have hsplit : ds = ds.take j ++ ds[j] :: ds.drop (j + 1) := by
    simp
  rw [List.eraseIdx_eq_take_drop_succ]
  exact (List.Perm.of_eq hsplit).trans List.perm_middle

theorem OnlyPair.mem_eraseIdx (h : OnlyPair ds i j) : ds[i] ∈ ds.eraseIdx j := by
  have hlt := h.lt
  refine List.mem_eraseIdx_iff_getElem.2 ⟨i, i.isLt, ?_, rfl⟩
  intro hij
  rw [Fin.ext hij] at hlt
  exact absurd hlt (Fin.lt_irrefl j)

/-- Without the second of the two, no line is repeated. -/
theorem OnlyPair.pairwise_eraseIdx (h : OnlyPair ds i j) :
    (ds.eraseIdx j).Pairwise fun d d' => ¬ SameLine d d' := by
  rw [List.pairwise_iff_getElem]
  intro a b ha hb hab hsame
  have hlen : (ds.eraseIdx j).length = ds.length - 1 := List.length_eraseIdx_of_lt j.isLt
  -- places in the shorter list are places in the list, other than `j`
  have place (n : Nat) (hn : n < (ds.eraseIdx j).length) :
      ∃ k : Fin ds.length, (ds.eraseIdx j)[n] = ds[k] ∧ k.val = if n < j then n else n + 1 := by
    rw [List.getElem_eraseIdx]
    split
    next hnj => exact ⟨⟨n, by omega⟩, rfl, rfl⟩
    next hnj => exact ⟨⟨n + 1, by omega⟩, rfl, rfl⟩
  obtain ⟨k, hk, hka⟩ := place a ha
  obtain ⟨l, hl, hlb⟩ := place b hb
  rw [hk, hl] at hsame
  have hkl : k < l := by
    rw [Fin.lt_def, hka, hlb]
    split <;> split <;> omega
  obtain ⟨-, rfl⟩ := (h.sameLine_iff k l hkl).1 hsame
  split at hlb <;> omega

end

/-! ## The entries of a repeated line -/

/-- Of entries among which only the position `q` is repeated, once, the two with one position are
those of `q`. -/
theorem perm_pair_of_filter {l before after : List (Position × String)} {p q : Position}
    {existing incoming message message' : String} (hl : (l.map (·.1)).Nodup)
    (hm : (q, message) ∈ l) (hp : (before ++ (p, incoming) :: after).Perm ((q, message') :: l))
    (hb : before.filter (·.1 = p) = [(p, existing)]) :
    p = q ∧ [existing, incoming].Perm [message, message'] := by
  have hfilter := hp.filter (·.1 = p)
  simp only [List.filter_append, hb, List.filter_cons, decide_true, if_true,
    List.singleton_append] at hfilter
  by_cases hq : q = p
  · subst hq
    rw [if_pos (by simp), (SortedMap.filter_key_eq_singleton_iff hl).2 hm] at hfilter
    have hafter : after.filter (·.1 = q) = [] := by
      have := hfilter.length_eq
      simp only [List.length_cons, List.length_nil] at this
      exact List.eq_nil_of_length_eq_zero (by omega)
    rw [hafter] at hfilter
    have hmessages := hfilter.map (·.2)
    exact ⟨rfl, hmessages.trans (.swap _ _ _)⟩
  · -- two entries of `p` among those that have each position once
    rw [if_neg (by simpa using hq)] at hfilter
    have hnodup : ((l.filter (·.1 = p)).map (·.1)).Nodup :=
      hl.sublist (List.filter_sublist.map _)
    have := (hfilter.map (·.1)).nodup_iff.2 hnodup
    simp at this

/-! ## Collecting rearranged findings -/

section
variable {analyzer : String} {payload payload' : Payload}

/-- Collecting fails because of two findings on the line `p`. Whose message was there before is
left open. -/
def Collides (analyzer : String) (payload : Payload) (p : Position) (d d' : Finding) : Prop :=
  ∃ existing incoming,
    ofPayload analyzer payload = .error (.duplicatePosition p existing incoming) ∧
      [existing, incoming].Perm [d.message, d'.message]

theorem ok_of_perm (hkeys : ∀ e ∈ payload'.toList, ∃ r, e.2.get? analyzer = some r)
    (h : (payload.findings analyzer).Perm (payload'.findings analyzer)) {m : Diagnostics}
    (hm : ofPayload analyzer payload = .ok m) : ofPayload analyzer payload' = .ok m := by
  obtain ⟨-, hposn, hentries⟩ := ofPayload_eq_ok_iff.1 hm
  refine ofPayload_eq_ok_iff.2 ⟨hkeys, fun d hd => hposn d (h.mem_iff.2 hd), ?_⟩
  exact hentries.trans (h.filterMap _)

/-- **The same findings give the same map, or no map.** -/
theorem ok_or_error_of_perm (hkeys : ∀ e ∈ payload.toList, ∃ r, e.2.get? analyzer = some r)
    (hkeys' : ∀ e ∈ payload'.toList, ∃ r, e.2.get? analyzer = some r)
    (h : (payload.findings analyzer).Perm (payload'.findings analyzer)) :
    (∃ m, ofPayload analyzer payload = .ok m ∧ ofPayload analyzer payload' = .ok m) ∨
      ∃ e e', ofPayload analyzer payload = .error e ∧ ofPayload analyzer payload' = .error e' := by
  cases hr : ofPayload analyzer payload with
  | ok m => exact .inl ⟨m, rfl, ok_of_perm hkeys' h hr⟩
  | error e =>
    cases hr' : ofPayload analyzer payload' with
    | ok m =>
      rw [ok_of_perm hkeys h.symm hr'] at hr
      cases hr
    | error e' => exact .inr ⟨e, e', rfl, rfl⟩

/-- With the analyzer in every package and positions that can be read, a failure names a line that
has a message already. -/
theorem exists_duplicate (hkeys : ∀ e ∈ payload.toList, ∃ r, e.2.get? analyzer = some r)
    (hposn : ∀ d ∈ payload.findings analyzer, ∃ p, Position.ofPosn d.posn = .ok p)
    {e : Failure} (he : ofPayload analyzer payload = .error e) :
    ∃ p existing incoming before after, e = .duplicatePosition p existing incoming ∧
      (payload.findings analyzer).filterMap Finding.placed? = before ++ (p, incoming) :: after ∧
      before.filter (·.1 = p) = [(p, existing)] := by
  obtain ⟨earlier, c, later, hcs, -, hc⟩ := ofPayload_eq_error_iff.1 he
  have hmem : c ∈ payload.checks analyzer := by
    rw [hcs]
    simp
  cases hc with
  | @lacking package entry =>
    obtain ⟨hentry, hnone⟩ := key_mem_checks.1 hmem
    obtain ⟨r, hr⟩ := hkeys _ hentry
    rw [hnone] at hr
    cases hr
  | @unreadable d cause hcause =>
    obtain ⟨p, hp⟩ := hposn d (posn_mem_checks.1 hmem)
    rw [hp] at hcause
    cases hcause
  | @taken p existing message htaken =>
    refine ⟨p, existing, message, placed earlier, placed later, rfl, ?_, htaken⟩
    rw [← placed_checks, hcs, placed_append]
    rfl

/-- **Two findings on one line are what a failure is about**, if no other two are. -/
theorem collides_of_onlyPair {ds : List Finding} {i j : Fin ds.length} {q : Position}
    (hkeys : ∀ e ∈ payload.toList, ∃ r, e.2.get? analyzer = some r)
    (h : (payload.findings analyzer).Perm ds)
    (hposn : ∀ d ∈ ds, ∃ p, Position.ofPosn d.posn = .ok p)
    (hpair : OnlyPair ds i j) (hq : Position.ofPosn ds[i].posn = .ok q) :
    Collides analyzer payload q ds[i] ds[j] := by
  have hperm := h.trans (perm_cons_eraseIdx ds j)
  have hposn' : ∀ d ∈ payload.findings analyzer, ∃ p, Position.ofPosn d.posn = .ok p :=
    fun d hd => hposn d (h.mem_iff.1 hd)
  have hrest : ∀ d ∈ ds.eraseIdx j, ∃ p, Position.ofPosn d.posn = .ok p :=
    fun d hd => hposn d (List.mem_of_mem_eraseIdx hd)
  have hi : ds[i].placed? = some (q, ds[i].message) := Finding.placed?_eq_some_iff.2 ⟨hq, rfl⟩
  have hj : ds[j].placed? = some (q, ds[j].message) :=
    Finding.placed?_eq_some_iff.2 ⟨hpair.sameLine ▸ hq, rfl⟩
  cases hr : ofPayload analyzer payload with
  | ok m =>
    obtain ⟨-, -, hm⟩ := ofPayload_eq_ok_iff.1 hr
    have hnodup := (nodup_places_iff hposn').1 (nodup_keys_of_perm hm)
    rw [hperm.pairwise_iff fun hne => Ne.symm hne, List.pairwise_cons] at hnodup
    exact absurd hpair.sameLine.symm (hnodup.1 _ hpair.mem_eraseIdx)
  | error e =>
    obtain ⟨p, existing, incoming, before, after, rfl, hplaces, hbefore⟩ :=
      exists_duplicate hkeys hposn' hr
    have hplaces' := hperm.filterMap Finding.placed?
    rw [hplaces, List.filterMap_cons_some hj] at hplaces'
    have hnodup := (nodup_places_iff hrest).2 hpair.pairwise_eraseIdx
    have hmem := List.mem_filterMap.2 ⟨_, hpair.mem_eraseIdx, hi⟩
    obtain ⟨rfl, hmessages⟩ := perm_pair_of_filter hnodup hmem hplaces' hbefore
    exact ⟨existing, incoming, hr, hmessages⟩

/-- **The arrangement of the findings does not count**: two payloads that have the analyzer in every
package and the same findings of it give the same map or both fail. If all positions can be read
and just two findings are on one line, both fail with that line and the messages of the two. -/
theorem independent_of_arrangement
    (hkeys : ∀ e ∈ payload.toList, ∃ r, e.2.get? analyzer = some r)
    (hkeys' : ∀ e ∈ payload'.toList, ∃ r, e.2.get? analyzer = some r)
    (h : (payload.findings analyzer).Perm (payload'.findings analyzer)) :
    ((∃ m, ofPayload analyzer payload = .ok m ∧ ofPayload analyzer payload' = .ok m) ∨
      ∃ e e', ofPayload analyzer payload = .error e ∧ ofPayload analyzer payload' = .error e') ∧
    ((∀ d ∈ payload.findings analyzer, ∃ p, Position.ofPosn d.posn = .ok p) →
      ∀ i j, OnlyPair (payload.findings analyzer) i j →
        ∃ p, Position.ofPosn (payload.findings analyzer)[i].posn = .ok p ∧
          Collides analyzer payload p (payload.findings analyzer)[i]
            (payload.findings analyzer)[j] ∧
          Collides analyzer payload' p (payload.findings analyzer)[i]
            (payload.findings analyzer)[j]) := by
  refine ⟨ok_or_error_of_perm hkeys hkeys' h, fun hposn i j hpair => ?_⟩
  obtain ⟨p, hp⟩ := hposn _ (List.getElem_mem i.isLt)
  exact ⟨p, hp, collides_of_onlyPair hkeys (.refl _) hposn hpair hp,
    collides_of_onlyPair hkeys' h.symm hposn hpair hp⟩

end

/-- Three findings in two packages; the first and the last are on one line. -/
def twoPackages : Payload :=
  SortedMap.ofList
    [("a", SortedMap.ofList [("n", some [⟨"x.go:7:1", "first"⟩, ⟨"y.go:1:1", "other"⟩])]),
      ("b", SortedMap.ofList [("n", some [⟨"x.go:+07:2", "last"⟩])])]

/-- The same findings in three packages, one of them without a list. -/
def threePackages : Payload :=
  SortedMap.ofList
    [("p", SortedMap.ofList [("n", some [⟨"x.go:+07:2", "last"⟩])]),
      ("q", SortedMap.ofList [("k", some []), ("n", none)]),
      ("r", SortedMap.ofList [("n", some [⟨"y.go:1:1", "other"⟩, ⟨"x.go:7:1", "first"⟩])])]

theorem independent_of_arrangement_twoPackages :
    (twoPackages.findings "n").Perm (threePackages.findings "n") ∧
      OnlyPair (twoPackages.findings "n") ⟨0, by decide⟩ ⟨2, by decide⟩ ∧
      ∃ p, Position.ofPosn "x.go:7:1" = .ok p ∧
        Collides "n" twoPackages p ⟨"x.go:7:1", "first"⟩ ⟨"x.go:+07:2", "last"⟩ ∧
        Collides "n" threePackages p ⟨"x.go:7:1", "first"⟩ ⟨"x.go:+07:2", "last"⟩ := by
  have hkeys : ∀ e ∈ twoPackages.toList, ∃ r, e.2.get? "n" = some r := by
    simp only [← Option.isSome_iff_exists]
    decide
  have hkeys' : ∀ e ∈ threePackages.toList, ∃ r, e.2.get? "n" = some r := by
    simp only [← Option.isSome_iff_exists]
    decide
  have hperm : (twoPackages.findings "n").Perm (threePackages.findings "n") := by decide
  have hpair : OnlyPair (twoPackages.findings "n") ⟨0, by decide⟩ ⟨2, by decide⟩ := by decide
  have hposn : ∀ d ∈ twoPackages.findings "n", ∃ p, Position.ofPosn d.posn = .ok p := by
    intro d hd
    have hd : d ∈ [⟨"x.go:7:1", "first"⟩, ⟨"y.go:1:1", "other"⟩, ⟨"x.go:+07:2", "last"⟩] := hd
    simp only [List.mem_cons, List.not_mem_nil, or_false] at hd
    rcases hd with rfl | rfl | rfl <;> exact ⟨_, rfl⟩
  exact ⟨hperm, hpair, (independent_of_arrangement hkeys hkeys' hperm).2 hposn _ _ hpair⟩

end Findings.Diagnostics
