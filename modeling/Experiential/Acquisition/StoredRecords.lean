import Experiential.Acquisition.Landing
import Experiential.Acquisition.NormalizedRecords
import Experiential.Lib.JsonRoundTrip
import Experiential.Lib.TextLines

/-! # What is stored and what is read back

Acquisition stores records as lines of canonical JSON; normalization takes the object for one document, or for one
on every line of `str.splitlines`. The two agree on a single record, and on several of which none holds a character
that ends a line for `str.splitlines` alone (`acquired_records_read_back`). JSON leaves U+0085, U+2028 and U+2029 in
a string as they are, and a second record makes them unreadable. -/

namespace Experiential.Acquisition

open Py

variable {F M : Type}

/-! ### Records and their lines -/

/-- The value a canonical text says: the entries of every dictionary are in the order of their keys. -/
def sortKeys : Json F → Json F
  | .list items => .list (items.map sortKeys)
  | .dict entries => .dict (sortedItems (entries.map fun e => (e.1, sortKeys e.2)))
  | .null => .null
  | .bool b => .bool b
  | .int n => .int n
  | .float x => .float x
  | .str s => .str s
decreasing_by
  · have hlt := List.sizeOf_lt_of_mem ‹_ ∈ items›
    simp only [Json.list.sizeOf_spec]
    omega
  · rename_i he
    have hlt := List.sizeOf_lt_of_mem he
    rcases e with ⟨k, v⟩
    simp only [Json.dict.sizeOf_spec, Prod.mk.sizeOf_spec] at hlt ⊢
    omega

/-- An object or an array. -/
def IsContainer : Json F → Prop
  | .list _ | .dict _ => True
  | _ => False

def char? : CodePoint → Option Char
  | .scalar c => some c
  | .surrogate _ => none

/-- `json.dumps` of a record, where it succeeds and its text can be encoded. -/
def canonicalText (env : TraceRuntime F M) (v : Json F) : Option String :=
  match canonicalWithin env env.rt.recursionLimit v with
  | .ok t => (t.mapM char?).map String.ofList
  | .error _ => none

/-- The code points of a line. -/
def lineOf (line : String) : PyStr := line.toList.map .scalar

variable {env : TraceRuntime F M}

theorem eq_of_mapM_char : ∀ {t : PyStr} {cs : List Char}, t.mapM char? = some cs → t = cs.map .scalar
  | [], cs, h => by
      cases h
      rfl
  | .surrogate n :: t, cs, h => by simp [char?] at h
  | .scalar c :: t, cs, h => by
      obtain ⟨rest, hrest, rfl⟩ : ∃ rest, t.mapM char? = some rest ∧ c :: rest = cs := by
        simpa [char?, Option.bind_eq_some_iff] using h
      rw [eq_of_mapM_char hrest, List.map_cons]

theorem canonicalText_eq {v : Json F} {line : String} (h : canonicalText env v = some line) :
    canonicalWithin env env.rt.recursionLimit v = .ok (lineOf line) := by
  unfold canonicalText at h
  split at h
  · rename_i t ht
    obtain ⟨cs, hcs, rfl⟩ := Option.map_eq_some_iff.mp h
    rw [ht, lineOf, String.toList_ofList, eq_of_mapM_char hcs]
  · cases h

theorem sortedItems_map (f : Json F → Json F) (entries : Entries F) :
    sortedItems (entries.map fun e => (e.1, f e.2)) = (sortedItems entries).map fun e => (e.1, f e.2) :=
  (List.map_insertionSort (fun a b : PyStr × Json F => keyLe a.1 b.1 = true) _ (fun e => (e.1, f e.2)) entries
    fun _ _ _ _ => .rfl).symm

/-- **A canonical text reads as its value**, whatever follows it. -/
theorem reads_canonical (hfloats : env.rt.FloatsReadBack) {v : Json F} (hv : v.Readable) :
    ∀ {depth : ℕ} {t : PyStr}, canonicalWithin env depth v = .ok t → Reads (scanOnce env.rt depth) t (sortKeys v) := by
  induction hv with
  | null =>
    intro depth t h
    rw [canonicalWithin] at h
    cases h
    rw [sortKeys]
    exact reads_constant (by simp [constants]) depth
  | bool b =>
    intro depth t h
    rw [sortKeys]
    cases b <;> rw [canonicalWithin] at h <;> cases h <;> exact reads_constant (by simp [constants]) depth
  | int hn =>
    intro depth t h
    rw [canonicalWithin] at h
    cases h
    rw [sortKeys]
    exact reads_int hn depth
  | float x =>
    intro depth t h
    rw [canonicalWithin] at h
    split_ifs at h
    cases h
    rw [sortKeys]
    exact reads_float hfloats x depth
  | str s =>
    intro depth t h
    rw [canonicalWithin] at h
    cases h
    rw [sortKeys]
    exact reads_string depth s
  | @list items _ ih =>
    intro depth t h
    cases depth with
    | zero => cases h
    | succ depth =>
      simp only [canonicalWithin, bind_eq_ok, pure_eq_ok] at h
      obtain ⟨ts, hts, rfl⟩ := h
      have hreads : List.Forall₂ (Reads (scanOnce env.rt depth)) ts (items.map sortKeys) :=
        List.forall₂_map_right_iff.mpr (forall₂_of_mapM hts fun v hv t ht => ih v hv ht)
      refine ⟨.list, fun rest _ => ?_⟩
      rw [List.cons_append, List.append_assoc, List.singleton_append, scanOnce_list, sortKeys]
      exact bind_eq_ok.mpr ⟨_, scanBody_intercalate (.inl rfl) Separators.valid_compact.item hreads rest, rfl⟩
  | @dict entries hkeys _ ih =>
    intro depth t h
    cases depth with
    | zero => cases h
    | succ depth =>
      simp only [canonicalWithin, bind_eq_ok, pure_eq_ok] at h
      obtain ⟨ts, hts, rfl⟩ := h
      have hperm : (sortedItems entries).Perm entries := List.perm_insertionSort _ _
      have hreads : List.Forall₂ (Reads (scanMember (scanOnce env.rt depth))) ts
          ((sortedItems entries).map fun e => (e.1, sortKeys e.2)) := by
        refine List.forall₂_map_right_iff.mpr (forall₂_of_mapM hts fun e he t ht => ?_)
        obtain ⟨u, hu, ht⟩ := bind_eq_ok.mp ht
        cases pure_eq_ok.mp ht
        exact reads_member Separators.valid_compact.key (ih e (hperm.mem_iff.mp he) hu)
      refine ⟨.dict, fun rest _ => ?_⟩
      rw [List.cons_append, List.append_assoc, List.singleton_append, scanOnce_dict, sortKeys, sortedItems_map sortKeys]
      refine bind_eq_ok.mpr ⟨_, scanBody_intercalate (.inr rfl) Separators.valid_compact.item hreads rest, ?_⟩
      change Except.ok (Json.dict (((sortedItems entries).map fun e => (e.1, sortKeys e.2)).foldl
        (fun d e => Entries.set d e.1 e.2) []), rest) = _
      rw [foldl_set, List.nil_append]
      rw [List.nil_append, List.map_map]
      exact (hperm.map Prod.fst).nodup_iff.mpr hkeys

theorem written_of_container {v : Json F} {depth : ℕ} {t : PyStr} (hv : IsContainer v)
    (h : canonicalWithin env depth v = .ok t) : ∃ c ∈ t, c.isSpace = false := by
  cases v with
  | list items | dict entries =>
    cases depth with
    | zero => cases h
    | succ depth =>
      simp only [canonicalWithin, bind_eq_ok, pure_eq_ok] at h
      obtain ⟨ts, -, rfl⟩ := h
      exact ⟨_, List.mem_cons_self, by decide⟩
  | _ => exact hv.elim

/-! ### Reading lines -/

/-- How `json.loads` takes a text with something behind it. -/
theorem loads_append {rt : Runtime F} {t rest : PyStr} {v : Json F} (ht : Reads (scanOnce rt rt.recursionLimit) t v)
    (hrest : EndsNumber rest) :
    loads rt (t ++ rest) = if skipWhitespace rest = [] then .ok v else .error .jsonDecode := by
  have hread := ht.read rest hrest
  rw [loads, if_neg ((ht.opens.append rest).no_bom ⟨_, _, hread⟩), decodeDocument,
    skipWhitespace_opens (ht.opens.append rest), hread]
  rfl

/-- A line and the value it is read as. -/
structure Line (env : TraceRuntime F M) (t : PyStr) (v : Json F) : Prop where
  reads : Reads (scanOnce env.rt env.rt.recursionLimit) t v
  written : ∃ c ∈ t, c.isSpace = false

theorem Line.decode {t : PyStr} {v : Json F} (h : Line env t v) : decodeLine env t = .ok (some v) := by
  obtain ⟨c, hc, hspace⟩ := h.written
  have hloads := loads_append h.reads endsNumber_nil
  rw [List.append_nil] at hloads
  rw [decodeLine, List.isEmpty_eq_false_iff.mpr (strip_ne_nil hc hspace), loadsCaught, hloads]
  rfl

theorem decodeDocuments_lines {texts : List PyStr} {values : List (Json F)} (h : List.Forall₂ (Line env) texts values)
    (hne : texts ≠ []) {content : Bytes} (hcontent : decodeStrict content = .ok (texts.flatMap (· ++ [.scalar '\n'])))
    (hunbroken : values.length = 1 ∨ ∀ t ∈ texts, Unbroken t) : decodeDocuments env content = .ok values := by
  have hdecodes : texts.mapM (decodeLine env) = .ok (values.map some) :=
    mapM_eq_ok.mpr (List.forall₂_map_right_iff.mpr (h.imp fun _ _ hline => hline.decode))
  have hends : ∀ s, EndsNumber (.scalar '\n' :: s) := by simp [EndsNumber, CodePoint.isDigit]
  unfold decodeDocuments
  rw [hcontent]
  simp only
  cases h with
  | nil => exact absurd rfl hne
  | @cons t v texts values hline hlines =>
    cases hlines with
    | nil =>
      rw [List.flatMap_singleton, loadsCaught, loads_append hline.reads (hends [])]
      rfl
    | @cons t' v' texts values hline' hlines =>
      -- The second line is left over when the first is read.
      have hrest : skipWhitespace (.scalar '\n' :: (t' :: texts).flatMap (· ++ [.scalar '\n'])) ≠ [] := by
        change skipWhitespace (t' ++ [.scalar '\n'] ++ _) ≠ []
        rw [List.append_assoc, skipWhitespace_opens (hline'.reads.opens.append _)]
        obtain ⟨c, s, rfl, -⟩ := hline'.reads.opens
        exact List.cons_ne_nil _ _
      have hloads : loadsCaught env ((t :: t' :: texts).flatMap (· ++ [.scalar '\n'])) = .ok none := by
        rw [List.flatMap_cons, List.append_assoc, List.singleton_append, loadsCaught,
          loads_append hline.reads (hends _), if_neg hrest]
        rfl
      rw [hloads, splitlines_lines (hunbroken.resolve_left (by simp))]
      change (List.mapM (decodeLine env) _ >>= fun documents => pure (documents.filterMap id)) = _
      refine bind_eq_ok.mpr ⟨_, hdecodes, ?_⟩
      simp

/-! ### The bytes of an object -/

theorem toList_lines : ∀ {lines : List String}, lines ≠ [] →
    ("\n".intercalate lines ++ "\n").toList = lines.flatMap fun line => line.toList ++ ['\n']
  | [], h => absurd rfl h
  | [line], _ => by
      rw [String.intercalate_singleton, String.toList_append]
      simp
  | line :: next :: lines, _ => by
      have ih := toList_lines (List.cons_ne_nil next lines)
      rw [String.intercalate_cons_cons, String.append_assoc, String.append_assoc, String.toList_append,
        String.toList_append, ih, List.flatMap_cons]
      simp

theorem decodeStrict_lines {lines : List String} (h : lines ≠ []) :
    decodeStrict ("\n".intercalate lines ++ "\n").toUTF8.data.toList =
      .ok ((lines.map lineOf).flatMap (· ++ [.scalar '\n'])) := by
  have hbytes : ∀ s : String, s.toUTF8.data.toList = s.toList.flatMap String.utf8EncodeChar := bytes_eq
  rw [hbytes, decodeStrict_chars, toList_lines h, List.map_flatMap, List.flatMap_map]
  simp [lineOf]

/-- **Acquired records read back.**  What acquisition stores is read as the same records by normalization, if there is
one only, or no text of theirs holds what ends a line. -/
theorem acquired_records_read_back (hfloats : env.rt.FloatsReadBack) {records : List (Json F)} {content : ByteArray}
    (hrecords : ∀ v ∈ records, IsContainer v ∧ v.Readable)
    (h : canonicalJsonl (canonicalText env) records = .ok content)
    (hunbroken : records.length = 1 ∨ ∀ v ∈ records, ∀ line, canonicalText env v = some line → Unbroken (lineOf line)) :
    decodeDocuments env content.data.toList = .ok (records.map sortKeys) := by
  simp only [canonicalJsonl, bind_eq_ok, ensure_eq_ok, pure_eq_ok] at h
  obtain ⟨_, hne, lines, hlines, _, -, rfl⟩ := h
  have hall : List.Forall₂ (Line env) (lines.map lineOf) (records.map sortKeys) := by
    rw [List.forall₂_map_left_iff, List.forall₂_map_right_iff]
    refine forall₂_of_mapM hlines fun v hv line hline => ?_
    have hwithin := canonicalText_eq (require_eq_ok.mp hline)
    obtain ⟨hcontainer, hreadable⟩ := hrecords v hv
    exact ⟨reads_canonical hfloats hreadable hwithin, written_of_container hcontainer hwithin⟩
  have hlinesNe : lines ≠ [] := by
    rintro rfl
    have hlength := hall.length_eq
    simp only [List.map_nil, List.length_nil, List.length_map] at hlength
    exact hne (List.eq_nil_of_length_eq_zero hlength.symm)
  refine decodeDocuments_lines hall (by simpa using hlinesNe) (decodeStrict_lines hlinesNe) ?_
  rw [List.length_map, List.forall_mem_map]
  refine hunbroken.imp_right fun hall line hmem => ?_
  obtain ⟨v, hv, hline⟩ := (mem_of_mapM_eq_ok hlines).mp hmem
  exact hall v hv line (require_eq_ok.mp hline)

/-! ### Two records -/

/-- Every float is `NaN`. -/
def storedEnv : TraceRuntime Unit PyStr :=
  { sampleEnv with rt := { Runtime.plain with floatText := fun _ => "NaN".toList } }

/-- Two records with the given name. -/
def namedRecords (name : String) : List (Json Unit) :=
  [.dict [(text "name", .str (text name)), (text "id", .int 1)], .list [.dict [(text "name", .str (text name))]]]

theorem acquired_records_read_back_sample : ∃ content,
    canonicalJsonl (canonicalText storedEnv) (namedRecords "a") = .ok content ∧
      decodeDocuments storedEnv content.data.toList = .ok ((namedRecords "a").map sortKeys) := by
  have hunbroken : ∀ v ∈ namedRecords "a", ∀ line ∈ canonicalText storedEnv v, ∀ c ∈ lineOf line,
      c.isLineBreak = false := by decide +kernel
  have hrecords : ∀ v ∈ namedRecords "a", IsContainer v ∧ v.Readable := by
    simp only [namedRecords, List.forall_mem_cons, List.not_mem_nil, false_imp_iff, implies_true, and_true]
    refine ⟨⟨trivial, .dict (by decide) ?_⟩, trivial, .list ?_⟩
    · have hshort : ShortInt 1 := Nat.le_add_left 1 4299
      simpa using ⟨.str _, .int hshort⟩
    · simpa using .dict (by decide) (by simpa using .str _)
  exact ⟨_, rfl, acquired_records_read_back (fun _ => .inl List.mem_cons_self) hrecords rfl (.inr hunbroken)⟩

end Experiential.Acquisition
