import Experiential.Lib.JsonReading

/-! # Reading back what was written

`loads` reads what `dumps` writes back as the document it was written from (`loads_dumps`), when the document's keys
differ in each dictionary and its integers are short enough to be read. Every document that `loads` returns is such
(`readable_of_loads`), and so is every part of one. -/

namespace Experiential.Py

variable {F : Type}

/-! ### Sequences -/

/-- A character with white space behind it. -/
def IsMark (c : Char) (s : PyStr) : Prop := ∃ ws, s = .scalar c :: ws ∧ ∀ w ∈ ws, isWhitespace w = true

structure Separators.Valid (sep : Separators) : Prop where
  item : IsMark ',' sep.item
  key : IsMark ':' sep.key

theorem Separators.valid_default : Separators.default.Valid := ⟨⟨_, rfl, by decide⟩, ⟨_, rfl, by decide⟩⟩

theorem Separators.valid_compact : Separators.compact.Valid := ⟨⟨_, rfl, by decide⟩, ⟨_, rfl, by decide⟩⟩

theorem skipWhitespace_append {ws t : PyStr} (hws : ∀ w ∈ ws, isWhitespace w = true) (ht : Opens t) :
    skipWhitespace (ws ++ t) = t := by
  rw [skipWhitespace, List.dropWhile_append_of_pos hws]
  exact skipWhitespace_opens ht

/-- A closing bracket. -/
def Closing (c : CodePoint) : Prop := c = .scalar ']' ∨ c = .scalar '\x7d'

section sequence
variable {α : Type} {item : Scan α} {close : CodePoint} {comma t : PyStr}

theorem endsNumber_closing (hclose : Closing close) (s : PyStr) : EndsNumber (close :: s) := by
  rintro d ⟨⟩
  obtain rfl | rfl := hclose <;> exact ⟨rfl, by decide, by decide, by decide⟩

theorem endsNumber_comma (hcomma : IsMark ',' comma) (s : PyStr) : EndsNumber (comma ++ s) := by
  obtain ⟨ws, rfl, -⟩ := hcomma
  rintro c ⟨⟩
  exact ⟨rfl, by decide, by decide, by decide⟩

theorem separator_closing (hclose : Closing close) (s : PyStr) : separator close (close :: s) = .ok (false, s) := by
  obtain rfl | rfl := hclose <;> rfl

theorem separator_comma (hclose : Closing close) (hcomma : IsMark ',' comma) (ht : Opens t) :
    separator close (comma ++ t) = .ok (true, t) := by
  obtain ⟨ws, rfl, hws⟩ := hcomma
  have hskip := skipWhitespace_append hws ht
  obtain rfl | rfl := hclose <;> exact congrArg (fun s => Except.ok (true, s)) hskip

variable {ts : List PyStr}

theorem opens_intercalate (hne : ts ≠ []) (h : ∀ t ∈ ts, Opens t) : Opens (comma.intercalate ts) := by
  cases ts with
  | nil => exact (hne rfl).elim
  | cons t ts =>
    have ht := h t List.mem_cons_self
    cases ts with
    | nil => simpa using ht
    | cons u ts =>
      rw [List.intercalate_cons_cons, List.append_assoc]
      exact ht.append _

theorem length_le_intercalate (h : ∀ t ∈ ts, Opens t) : ts.length ≤ (comma.intercalate ts).length := by
  induction ts with
  | nil => simp
  | cons t ts ih =>
    have ih := ih fun u hu => h u (List.mem_cons_of_mem t hu)
    obtain ⟨c, s, ht, -⟩ := h t List.mem_cons_self
    cases ts with
    | nil => simp [ht]
    | cons u ts =>
      rw [List.intercalate_cons_cons]
      simp only [ht, List.length_append, List.length_cons] at ih ⊢
      omega

theorem opens_of_reads {xs : List α} (h : List.Forall₂ (Reads item) ts xs) : ∀ t ∈ ts, Opens t := by
  induction h with
  | nil => exact nofun
  | cons hread _ ih => exact List.forall_mem_cons.mpr ⟨hread.opens, ih⟩

/-- Texts with a comma between each two, up to the closing bracket. -/
theorem scanItems_intercalate (hclose : Closing close) (hcomma : IsMark ',' comma) {xs : List α}
    (h : List.Forall₂ (Reads item) ts xs) (hne : ts ≠ []) (rest : PyStr) {fuel : Nat} (hfuel : ts.length ≤ fuel) :
    scanItems item close fuel (comma.intercalate ts ++ close :: rest) = .ok (xs, rest) := by
  induction h generalizing fuel with
  | nil => exact (hne rfl).elim
  | @cons t x ts xs hread htail ih =>
    obtain ⟨fuel, rfl⟩ : ∃ n, fuel = n + 1 := ⟨fuel - 1, by rw [List.length_cons] at hfuel; omega⟩
    cases htail with
    | nil =>
      have hitem := hread.read (close :: rest) (endsNumber_closing hclose rest)
      rw [List.intercalate_singleton, scanItems, hitem]
      change (separator close (close :: rest) >>= fun r => _) = _
      rw [separator_closing hclose]
      rfl
    | @cons u y us ys hu hus =>
      have hrest : scanItems item close fuel (comma.intercalate (u :: us) ++ close :: rest) = .ok (y :: ys, rest) :=
        ih (List.cons_ne_nil u us) (by rw [List.length_cons] at hfuel; omega)
      have hopens : Opens (comma.intercalate (u :: us)) :=
        opens_intercalate (List.cons_ne_nil u us) (opens_of_reads (.cons hu hus))
      have hitem := hread.read (comma ++ (comma.intercalate (u :: us) ++ close :: rest)) (endsNumber_comma hcomma _)
      rw [List.intercalate_cons_cons, List.append_assoc, List.append_assoc, scanItems, hitem]
      change (separator close (comma ++ (comma.intercalate (u :: us) ++ close :: rest)) >>= fun r => _) = _
      rw [separator_comma hclose hcomma (hopens.append _)]
      change (scanItems item close fuel (comma.intercalate (u :: us) ++ close :: rest) >>= fun r => _) = _
      rw [hrest]
      rfl

/-- The items of a container read back, none of them included. -/
theorem scanBody_intercalate (hclose : Closing close) (hcomma : IsMark ',' comma) {xs : List α}
    (h : List.Forall₂ (Reads item) ts xs) (rest : PyStr) :
    scanBody item close (comma.intercalate ts ++ close :: rest) = .ok (xs, rest) := by
  by_cases hne : ts = []
  · subst hne
    cases h
    obtain rfl | rfl := hclose <;> rfl
  · have hopens := opens_of_reads h
    have hlength : ts.length ≤ (comma.intercalate ts).length := length_le_intercalate hopens
    have hread : scanItems item close (comma.intercalate ts ++ close :: rest).length
        (comma.intercalate ts ++ close :: rest) = .ok (xs, rest) := by
      refine scanItems_intercalate hclose hcomma h hne rest ?_
      rw [List.length_append]
      omega
    have hopen : Opens (comma.intercalate ts ++ close :: rest) := (opens_intercalate hne hopens).append _
    rw [scanBody, skipWhitespace_opens hopen]
    obtain ⟨c, s, hs, -, hlist, hdict⟩ := hopen
    have hc : c ≠ close := by
      obtain rfl | rfl := hclose
      · exact hlist
      · exact hdict
    rw [hs] at hread ⊢
    exact (if_neg hc).trans hread

end sequence

theorem reads_member {value : Scan (Json F)} {colon k t : PyStr} {v : Json F} (hcolon : IsMark ':' colon)
    (h : Reads value t v) : Reads (scanMember value) (quote k ++ (colon ++ t)) (k, v) := by
  refine ⟨(opens_quote k).append _, fun rest hr => ?_⟩
  obtain ⟨ws, rfl, hws⟩ := hcolon
  have htext : (quote k ++ ((.scalar ':' :: ws) ++ t)) ++ rest =
      .scalar '"' :: (k.flatMap escape ++ .scalar '"' :: (.scalar ':' :: (ws ++ (t ++ rest)))) := by
    simp [quote]
  have hskip := skipWhitespace_append hws (h.opens.append rest)
  rw [htext, scanMember, if_pos rfl]
  refine bind_eq_ok.mpr ⟨_, scanString_quoted k _, ?_⟩
  change (if CodePoint.scalar ':' = .scalar ':' then _ else _) = _
  rw [if_pos rfl, hskip]
  exact bind_eq_ok.mpr ⟨_, h.read rest hr, rfl⟩

/-! ### Documents -/

/-- Keys differ in each dictionary, and integers are read. -/
inductive Json.Readable : Json F → Prop
  | null : Readable .null
  | bool (b : Bool) : Readable (.bool b)
  | int {n : Int} (h : ShortInt n) : Readable (.int n)
  | float (x : F) : Readable (.float x)
  | str (s : PyStr) : Readable (.str s)
  | list {items : List (Json F)} (h : ∀ v ∈ items, Readable v) : Readable (.list items)
  | dict {entries : Entries F} (keys : (entries.map Prod.fst).Nodup) (h : ∀ e ∈ entries, Readable e.2) :
      Readable (.dict entries)

theorem foldl_set (l d : Entries F) (h : ((d ++ l).map Prod.fst).Nodup) :
    l.foldl (fun d e => Entries.set d e.1 e.2) d = d ++ l := by
  induction l generalizing d with
  | nil => simp
  | cons e l ih =>
    have hnew : e.1 ∉ d.map Prod.fst := by
      rw [List.map_append, List.map_cons, List.nodup_append] at h
      exact fun he => h.2.2 _ he _ List.mem_cons_self rfl
    rw [List.foldl_cons, Entries.set, if_neg hnew, ih, List.append_assoc]
    · rfl
    · rw [List.append_assoc]
      exact h

section documents
variable {rt : Runtime F} {sep : Separators}

theorem scanOnce_list (depth : Nat) (s : PyStr) : scanOnce rt (depth + 1) (.scalar '[' :: s) = (do
    let (items, rest) ← scanBody (scanOnce rt depth) (.scalar ']') s
    return (.list items, rest)) := if_pos rfl

theorem scanOnce_dict (depth : Nat) (s : PyStr) : scanOnce rt (depth + 1) (.scalar '\x7b' :: s) = (do
    let (members, rest) ← scanBody (scanMember (scanOnce rt depth)) (.scalar '\x7d') s
    return (.dict (members.foldl (fun d e => Entries.set d e.1 e.2) []), rest)) :=
  (if_neg (by decide)).trans (if_pos rfl)

theorem Opens.list {s : PyStr} : Opens (.scalar '[' :: s) := ⟨_, s, rfl, rfl, by decide, by decide⟩

theorem Opens.dict {s : PyStr} : Opens (.scalar '\x7b' :: s) := ⟨_, s, rfl, rfl, by decide, by decide⟩

/-- **What is written reads back.**  The budget that sufficed for writing does for reading. -/
theorem reads_dumpsWithin (hsep : sep.Valid) (hfloats : rt.FloatsReadBack) {v : Json F} (hv : v.Readable) :
    ∀ {depth : Nat} {t : PyStr}, dumpsWithin rt sep depth v = .ok t → Reads (scanOnce rt depth) t v := by
  induction hv with
  | null =>
    intro depth t h
    rw [dumpsWithin] at h
    cases h
    exact reads_constant (by simp [constants]) depth
  | bool b =>
    intro depth t h
    cases b <;> rw [dumpsWithin] at h <;> cases h <;> exact reads_constant (by simp [constants]) depth
  | int hn =>
    intro depth t h
    rw [dumpsWithin] at h
    cases h
    exact reads_int hn depth
  | float x =>
    intro depth t h
    rw [dumpsWithin] at h
    cases h
    exact reads_float hfloats x depth
  | str s =>
    intro depth t h
    rw [dumpsWithin] at h
    cases h
    exact reads_string depth s
  | @list items _ ih =>
    intro depth t h
    cases depth with
    | zero => cases h
    | succ depth =>
      simp only [dumpsWithin, bind_eq_ok, pure_eq_ok] at h
      obtain ⟨ts, hts, rfl⟩ := h
      have hreads : List.Forall₂ (Reads (scanOnce rt depth)) ts items :=
        forall₂_of_mapM hts fun v hv t ht => ih v hv ht
      refine ⟨.list, fun rest _ => ?_⟩
      rw [List.cons_append, List.append_assoc, List.singleton_append, scanOnce_list]
      exact bind_eq_ok.mpr ⟨_, scanBody_intercalate (.inl rfl) hsep.item hreads rest, rfl⟩
  | @dict entries hkeys _ ih =>
    intro depth t h
    cases depth with
    | zero => cases h
    | succ depth =>
      simp only [dumpsWithin, bind_eq_ok, pure_eq_ok] at h
      obtain ⟨ts, hts, rfl⟩ := h
      have hreads : List.Forall₂ (Reads (scanMember (scanOnce rt depth))) ts entries := by
        refine forall₂_of_mapM hts fun e he t ht => ?_
        obtain ⟨u, hu, ht⟩ := bind_eq_ok.mp ht
        cases pure_eq_ok.mp ht
        exact reads_member hsep.key (ih e he hu)
      refine ⟨.dict, fun rest _ => ?_⟩
      rw [List.cons_append, List.append_assoc, List.singleton_append, scanOnce_dict]
      refine bind_eq_ok.mpr ⟨_, scanBody_intercalate (.inr rfl) hsep.item hreads rest, ?_⟩
      change Except.ok (Json.dict (entries.foldl (fun d e => Entries.set d e.1 e.2) []), rest) = _
      rw [foldl_set entries [] (by simpa using hkeys), List.nil_append]

theorem Opens.no_bom {t : PyStr} (h : Opens t) (hread : ∃ v rest, scanOnce rt rt.recursionLimit t = .ok (v, rest)) :
    t.head? ≠ some (.ofNat 0xFEFF) := by
  obtain ⟨c, s, rfl, -⟩ := h
  rintro ⟨⟩
  obtain ⟨v, rest, hread⟩ := hread
  rw [scanOnce_scalar (by decide) (by decide)] at hread
  have hnone : scanScalar rt (.ofNat 0xFEFF :: s) = .error .jsonDecode := rfl
  rw [hnone] at hread
  cases hread

theorem loads_dumps (hsep : sep.Valid) (hfloats : rt.FloatsReadBack) {v : Json F} {t : PyStr} (hv : v.Readable)
    (h : dumps rt sep v = .ok t) : loads rt t = .ok v := by
  obtain ⟨hopens, hread⟩ := reads_dumpsWithin hsep hfloats hv h
  have hread := hread [] endsNumber_nil
  rw [List.append_nil] at hread
  rw [loads, if_neg (hopens.no_bom ⟨_, _, hread⟩), decodeDocument, skipWhitespace_opens hopens, hread]
  rfl

end documents

/-! ### What is read -/

section reading
variable {rt : Runtime F}

theorem isDigit_of_digitRun : ∀ {s : PyStr} {d : Char}, d ∈ (digitRun s).1 → d.isDigit = true
  | [], _, h => nomatch h
  | .surrogate _ :: _, _, h => nomatch h
  | .scalar c :: s, d, h => by
    rw [digitRun] at h
    split_ifs at h with hc
    · rcases List.mem_cons.mp h with rfl | h
      · exact hc
      · exact isDigit_of_digitRun h
    · cases h

theorem digits_of_intPart {s rest : PyStr} {ds : List Char} (h : intPart s = .ok (ds, rest)) :
    ds ≠ [] ∧ ∀ d ∈ ds, d.isDigit = true := by
  cases s with
  | nil => cases h
  | cons c s =>
    rw [intPart] at h
    split_ifs at h with hzero hnone
    · cases h
      refine ⟨List.cons_ne_nil _ _, fun d hd => ?_⟩
      rw [List.mem_singleton.mp hd]
      rfl
    · rw [Except.ok.injEq, Prod.ext_iff] at h
      obtain ⟨rfl, -⟩ := h
      exact ⟨hnone, fun d hd => isDigit_of_digitRun hd⟩

theorem readable_of_numberOf {n : NumberText} {v : Json F} (hne : n.int ≠ []) (hds : ∀ d ∈ n.int, d.isDigit = true)
    (h : numberOf rt n = .ok v) : v.Readable := by
  rw [numberOf] at h
  split_ifs at h with hfloat hlength hneg
  · cases h
    exact .float _
  · cases h
    refine .int ?_
    rw [ShortInt, Int.natAbs_neg, Int.natAbs_natCast]
    exact Nat.le_trans (length_toDigits_le hds hne) hlength
  · cases h
    refine .int ?_
    rw [ShortInt, Int.natAbs_natCast]
    exact Nat.le_trans (length_toDigits_le hds hne) hlength

theorem readable_of_scanScalar {s rest : PyStr} {v : Json F} (h : scanScalar rt s = .ok (v, rest)) : v.Readable := by
  cases s with
  | nil => cases h
  | cons c s =>
    rw [scanScalar] at h
    split_ifs at h with hquote
    · obtain ⟨⟨t, u⟩, -, h⟩ := bind_eq_ok.mp h
      cases pure_eq_ok.mp h
      exact .str t
    · split at h
      · rename_i w hw
        cases h
        have hmem := List.mem_of_find?_eq_some hw
        simp only [constants, List.mem_cons, List.not_mem_nil, or_false] at hmem
        obtain rfl | rfl | rfl | rfl | rfl | rfl := hmem
        · exact .null
        · exact .bool true
        · exact .bool false
        all_goals exact .float _
      · obtain ⟨⟨n, t⟩, hn, h⟩ := bind_eq_ok.mp h
        obtain ⟨v', hv, h⟩ := bind_eq_ok.mp h
        cases pure_eq_ok.mp h
        obtain ⟨⟨ds, u⟩, hint, hn⟩ := bind_eq_ok.mp hn
        cases pure_eq_ok.mp hn
        obtain ⟨hne, hds⟩ := digits_of_intPart hint
        exact readable_of_numberOf hne hds hv

theorem forall_of_scanItems {α : Type} {item : Scan α} {close : CodePoint} {P : α → Prop}
    (hitem : ∀ s x rest, item s = .ok (x, rest) → P x) : ∀ {fuel : Nat} {s rest : PyStr} {xs : List α},
    scanItems item close fuel s = .ok (xs, rest) → ∀ x ∈ xs, P x := by
  intro fuel
  induction fuel with
  | zero => exact nofun
  | succ fuel ih =>
    intro s rest xs h
    obtain ⟨⟨x, s₁⟩, hx, h⟩ := bind_eq_ok.mp h
    obtain ⟨⟨more, s₂⟩, -, h⟩ := bind_eq_ok.mp h
    have hhead := hitem _ _ _ hx
    cases more with
    | false =>
      cases pure_eq_ok.mp h
      exact List.forall_mem_singleton.mpr hhead
    | true =>
      obtain ⟨⟨ys, s₃⟩, hys, h⟩ := bind_eq_ok.mp h
      cases pure_eq_ok.mp h
      exact List.forall_mem_cons.mpr ⟨hhead, ih hys⟩

theorem forall_of_scanBody {α : Type} {item : Scan α} {close : CodePoint} {P : α → Prop}
    (hitem : ∀ s x rest, item s = .ok (x, rest) → P x) {s rest : PyStr} {xs : List α}
    (h : scanBody item close s = .ok (xs, rest)) : ∀ x ∈ xs, P x := by
  rw [scanBody] at h
  split at h
  · cases h
  · split_ifs at h
    · cases h
      exact nofun
    · exact forall_of_scanItems hitem h

theorem snd_of_scanMember {value : Scan (Json F)} {P : Json F → Prop} (hvalue : ∀ s v rest, value s = .ok (v, rest) → P v)
    {s rest : PyStr} {e : PyStr × Json F} (h : scanMember value s = .ok (e, rest)) : P e.2 := by
  cases s with
  | nil => cases h
  | cons c s =>
    rw [scanMember] at h
    split_ifs at h
    obtain ⟨⟨key, t⟩, -, h⟩ := bind_eq_ok.mp h
    dsimp only at h
    split at h
    · cases h
    · split_ifs at h
      obtain ⟨⟨v, u⟩, hv, h⟩ := bind_eq_ok.mp h
      cases pure_eq_ok.mp h
      exact hvalue _ _ _ hv

theorem Entries.nodup_keys_set {d : Entries F} (h : (d.map Prod.fst).Nodup) (k : PyStr) (v : Json F) :
    ((d.set k v).map Prod.fst).Nodup := by
  rw [Entries.set]
  split_ifs with hk
  · have hsame : (d.map fun e => if e.1 = k then (k, v) else e).map Prod.fst = d.map Prod.fst := by
      rw [List.map_map]
      refine List.map_congr_left fun e _ => ?_
      change (if e.1 = k then (k, v) else e).1 = e.1
      split_ifs with he
      · exact he.symm
      · rfl
    rw [hsame]
    exact h
  · rw [List.map_append, List.nodup_append]
    refine ⟨h, by simp, fun a ha b hb => ?_⟩
    cases List.mem_singleton.mp hb
    rintro rfl
    exact hk ha

theorem Entries.mem_set {d : Entries F} {k : PyStr} {v : Json F} {e : PyStr × Json F} (h : e ∈ d.set k v) :
    e ∈ d ∨ e = (k, v) := by
  rw [Entries.set] at h
  split_ifs at h
  · obtain ⟨e', he', rfl⟩ := List.mem_map.mp h
    split_ifs
    · exact .inr rfl
    · exact .inl he'
  · rcases List.mem_append.mp h with h | h
    · exact .inl h
    · exact .inr (List.mem_singleton.mp h)

theorem readable_foldl_set (l : Entries F) (hl : ∀ e ∈ l, e.2.Readable) (d : Entries F)
    (h : (Json.dict d).Readable) : (Json.dict (l.foldl (fun d e => Entries.set d e.1 e.2) d)).Readable := by
  induction l generalizing d with
  | nil => exact h
  | cons e l ih =>
    obtain ⟨he, hl⟩ := List.forall_mem_cons.mp hl
    cases h with
    | dict keys hd =>
      refine ih hl _ (.dict (Entries.nodup_keys_set keys _ _) fun x hx => ?_)
      rcases Entries.mem_set hx with hx | rfl
      · exact hd x hx
      · exact he

theorem readable_of_scanOnce : ∀ {depth : Nat} {s rest : PyStr} {v : Json F},
    scanOnce rt depth s = .ok (v, rest) → v.Readable := by
  intro depth
  induction depth with
  | zero =>
    intro s rest v h
    cases s with
    | nil => cases h
    | cons c s =>
      rw [scanOnce] at h
      split_ifs at h
      exact readable_of_scanScalar h
  | succ depth ih =>
    intro s rest v h
    cases s with
    | nil => cases h
    | cons c s =>
      rw [scanOnce] at h
      split_ifs at h with hlist hdict
      · obtain ⟨⟨items, t⟩, hitems, h⟩ := bind_eq_ok.mp h
        cases pure_eq_ok.mp h
        exact .list (forall_of_scanBody (fun _ _ _ => ih) hitems)
      · obtain ⟨⟨members, t⟩, hmembers, h⟩ := bind_eq_ok.mp h
        cases pure_eq_ok.mp h
        have hvalues := forall_of_scanBody (fun _ _ _ hx => snd_of_scanMember (fun _ _ _ => ih) hx) hmembers
        exact readable_foldl_set members hvalues [] (.dict List.nodup_nil nofun)
      · exact readable_of_scanScalar h

theorem readable_of_loadsBytes {b : Bytes} {v : Json F} (h : loadsBytes rt b = .ok v) : v.Readable := by
  obtain ⟨s, -, h⟩ := bind_eq_ok.mp h
  obtain ⟨⟨v', rest⟩, hscan, h⟩ := bind_eq_ok.mp h
  dsimp only at h
  split_ifs at h
  cases pure_eq_ok.mp h
  exact readable_of_scanOnce hscan

end reading

/-! ### Parts of a document -/

/-- A value that stands in a document. -/
inductive Json.Within (v : Json F) : Json F → Prop
  | refl : Within v v
  | item {items : List (Json F)} {w : Json F} (hw : w ∈ items) (h : Within v w) : Within v (.list items)
  | value {entries : Entries F} {e : PyStr × Json F} (he : e ∈ entries) (h : Within v e.2) : Within v (.dict entries)

theorem Json.Readable.within {v w : Json F} (hw : w.Readable) (h : v.Within w) : v.Readable := by
  induction h with
  | refl => exact hw
  | item hmem _ ih =>
    cases hw with
    | list hitems => exact ih (hitems _ hmem)
  | value hmem _ ih =>
    cases hw with
    | dict _ hvalues => exact ih (hvalues _ hmem)

end Experiential.Py
