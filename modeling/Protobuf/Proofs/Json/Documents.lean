import Protobuf.Json.Parser
import Protobuf.Proofs.Json.Edits
import Protobuf.Proofs.Json.Tokens

/-! # Documents are read, unless a key comes twice

A text of a value, written in any way, is read as the value if no object in it has a key
twice.  Otherwise the first key that stands in its object for the second time is reported,
however deep the object is and whatever the spelling of the key.

* `FirstRepeat`: the first item of a list that was there before.
* `Json.nodup_keySites_iff`: no key stands twice in one object.
* `JsonReader.Yields`: what comes of reading: it goes on with the value, or a key is refused.
* `JsonReader.reads`: one value in front of other tokens.
* `Json.parse_of_padded`: a whole document.
-/

namespace Protobuf

/-- The first item of a list that stands in it for the second time. -/
def FirstRepeat {α : Type} (items : List α) (a : α) : Prop :=
  ∃ before after, items = before ++ a :: after ∧ a ∈ before ∧ before.Nodup

section

variable {α : Type} {items front inner back : List α} {a : α}

theorem not_nodup_of_mem_front (h : a ∈ front) : ¬(front ++ a :: back).Nodup := fun nodup =>
  (List.nodup_append.1 nodup).2.2 a h a List.mem_cons_self rfl

theorem FirstRepeat.not_nodup (h : FirstRepeat items a) : ¬items.Nodup := by
  obtain ⟨before, after, rfl, hmem, -⟩ := h
  exact not_nodup_of_mem_front hmem

/-- A repeat stays the first one behind items that are all new. -/
theorem FirstRepeat.append (h : FirstRepeat inner a) (nodup : front.Nodup)
    (apart : front.Disjoint inner) : FirstRepeat (front ++ (inner ++ back)) a := by
  obtain ⟨before, after, rfl, hmem, hnodup⟩ := h
  refine ⟨front ++ before, after ++ back, by simp, List.mem_append_right _ hmem, ?_⟩
  exact nodup.append hnodup fun x hx hx' => apart hx (List.mem_append_left _ hx')

/-- The first repeat stands behind items that are all new. -/
theorem FirstRepeat.exists_middle (h : FirstRepeat (front ++ back) a) (nodup : front.Nodup) :
    ∃ middle after, back = middle ++ a :: after ∧ a ∈ front ++ middle ∧
      (front ++ middle).Nodup := by
  obtain ⟨before, after, heq, hmem, hnodup⟩ := h
  rcases List.append_eq_append_iff.1 heq with ⟨middle, rfl, hback⟩ | ⟨middle, rfl, hrest⟩
  · exact ⟨middle, after, hback, hmem, hnodup⟩
  · cases middle with
    | nil =>
      rw [List.nil_append] at hrest
      exact ⟨[], after, hrest.symm, by simpa using hmem, by simpa using hnodup⟩
    | cons b middle =>
      obtain ⟨rfl, -⟩ := List.cons.inj hrest
      exact absurd nodup (not_nodup_of_mem_front hmem)

theorem FirstRepeat.unique {items : List α} {a b : α} (h : FirstRepeat items a)
    (h' : FirstRepeat items b) : a = b := by
  obtain ⟨before, after, rfl, hmem, hnodup⟩ := h
  obtain ⟨middle, after', hback, -, hmiddle⟩ := h'.exists_middle hnodup
  cases middle with
  | nil => exact (List.cons.inj hback).1
  | cons c middle =>
    obtain ⟨rfl, -⟩ := List.cons.inj hback
    exact absurd hmiddle (not_nodup_of_mem_front hmem)

/-- A repeat stays the first one if items that are all new come in between. -/
theorem FirstRepeat.insert (h : FirstRepeat (front ++ back) a) (nodup : front.Nodup)
    (new : inner.Nodup) (apart : front.Disjoint inner) (apart' : inner.Disjoint back) :
    FirstRepeat (front ++ (inner ++ back)) a := by
  obtain ⟨middle, after, rfl, hmem, hnodup⟩ := h.exists_middle nodup
  obtain ⟨-, hmiddle, hdisjoint⟩ := List.nodup_append'.1 hnodup
  refine ⟨front ++ (inner ++ middle), after, by simp, ?_, ?_⟩
  · simp only [List.mem_append] at hmem ⊢
    exact hmem.imp_right .inr
  · refine nodup.append (new.append hmiddle fun x hx hx' => ?_) ?_
    · exact apart' hx (List.mem_append_left _ hx')
    · exact List.disjoint_append_right.2 ⟨apart, hdisjoint⟩

end

/-! ## Where keys stand -/

namespace Json

/-- A key that stands in an object itself or in one of its members from the one at `i` on, or in
    the items of an array. -/
def StandsFrom (path : List Nat) (i : Nat) (site : List Nat × String) : Prop :=
  site.1 = path ∨ ∃ j, i ≤ j ∧ path ++ [j] <+: site.1

theorem StandsFrom.inside {path : List Nat} {i : Nat} {site : List Nat × String}
    (h : StandsFrom path i site) : path <+: site.1 := by
  rcases h with h | ⟨j, -, h⟩
  · rw [h]
  · exact (List.prefix_append _ _).trans h

theorem StandsFrom.of_succ {path : List Nat} {i : Nat} {site : List Nat × String}
    (h : StandsFrom path (i + 1) site) : StandsFrom path i site :=
  h.imp_right fun ⟨j, hj, hinside⟩ => ⟨j, by omega, hinside⟩

/-- Keys in an item stand apart from those around it and in the items behind it. -/
theorem not_standsFrom_succ {path : List Nat} {i : Nat} {site : List Nat × String}
    (h : path ++ [i] <+: site.1) : ¬StandsFrom path (i + 1) site := by
  rintro (heq | ⟨j, hj, h'⟩)
  · have := h.length_le
    rw [heq, List.length_append, List.length_singleton] at this
    omega
  · have heq := (List.prefix_of_prefix_length_le h h' (by simp)).eq_of_length (by simp)
    have : i = j := by simpa using heq
    omega

section

variable {items : List Json} {members : Members} {path : List Nat} {i : Nat}
  {site : List Nat × String}

theorem standsFrom_of_mem_itemSites
    (each : ∀ v ∈ items, ∀ {path : List Nat} {site}, site ∈ v.keySites path → path <+: site.1)
    (h : site ∈ itemSites path i items) : StandsFrom path i site := by
  induction items generalizing i with
  | nil => simp [itemSites] at h
  | cons v rest ih =>
    rw [itemSites, List.mem_append] at h
    rcases h with h | h
    · exact .inr ⟨i, Nat.le_refl i, each v List.mem_cons_self h⟩
    · exact (ih (fun v hv => each v (List.mem_cons_of_mem _ hv)) h).of_succ

theorem standsFrom_of_mem_memberSites
    (each : ∀ e ∈ members, ∀ {path : List Nat} {site}, site ∈ e.2.keySites path → path <+: site.1)
    (h : site ∈ memberSites path i members) : StandsFrom path i site := by
  induction members generalizing i with
  | nil => simp [memberSites] at h
  | cons e rest ih =>
    rw [memberSites, List.mem_cons, List.mem_append] at h
    rcases h with h | h | h
    · exact .inl (congrArg Prod.fst h)
    · exact .inr ⟨i, Nat.le_refl i, each e List.mem_cons_self h⟩
    · exact (ih (fun e he => each e (List.mem_cons_of_mem _ he)) h).of_succ

end

/-- Keys of a value stand in objects in the value. -/
theorem inside_of_mem_keySites (v : Json) : ∀ {path : List Nat} {site : List Nat × String},
    site ∈ v.keySites path → path <+: site.1 := by
  induction v using Json.induction with
  | null | bool | number | string => simp [keySites]
  | array items ih =>
    intro path site h
    exact (standsFrom_of_mem_itemSites ih h).inside
  | object members ih =>
    intro path site h
    exact (standsFrom_of_mem_memberSites ih h).inside

theorem disjoint_itemSites (v : Json) (rest : List Json) (path : List Nat) (i : Nat) :
    (v.keySites (path ++ [i])).Disjoint (itemSites path (i + 1) rest) := fun _ h h' =>
  not_standsFrom_succ (v.inside_of_mem_keySites h)
    (standsFrom_of_mem_itemSites (fun v _ => v.inside_of_mem_keySites) h')

theorem disjoint_memberSites (v : Json) (rest : Members) (path : List Nat) (i : Nat) :
    (v.keySites (path ++ [i])).Disjoint (memberSites path (i + 1) rest) := fun _ h h' =>
  not_standsFrom_succ (v.inside_of_mem_keySites h)
    (standsFrom_of_mem_memberSites (fun e _ => e.2.inside_of_mem_keySites) h')

theorem not_mem_keySites (v : Json) (path : List Nat) (i : Nat) (key : String) :
    (path, key) ∉ v.keySites (path ++ [i]) := fun h =>
  not_standsFrom_succ (v.inside_of_mem_keySites h) (.inl rfl)

/-! ## Distinct keys -/

theorem hasDistinctKeys_array {items : List Json} :
    (array items).HasDistinctKeys ↔ ∀ v ∈ items, v.HasDistinctKeys := by
  constructor
  · exact fun h v hv => h.of_partOf (.item hv (.self v))
  · intro h ms part
    cases part with
    | item hv rest => exact h _ hv ms rest

theorem hasDistinctKeys_object {members : Members} :
    (object members).HasDistinctKeys ↔
      (members.map (·.1)).Nodup ∧ ∀ e ∈ members, e.2.HasDistinctKeys := by
  constructor
  · exact fun h => ⟨h members (.self _), fun e he => h.of_partOf (.member he (.self e.2))⟩
  · exact fun h => .object h.1 h.2

theorem mem_memberSites_iff {members : Members} {path : List Nat} {i : Nat} {key : String} :
    (path, key) ∈ memberSites path i members ↔ key ∈ members.map (·.1) := by
  induction members generalizing i with
  | nil => simp [memberSites]
  | cons e rest ih =>
    rw [memberSites, List.mem_cons, List.mem_append, ih, List.map_cons, List.mem_cons,
      or_iff_right (not_mem_keySites e.2 path i key), Prod.mk.injEq, and_iff_right rfl]

/-- No key stands twice in one object exactly if no object has a key twice. -/
theorem nodup_keySites_iff (v : Json) (path : List Nat) :
    (v.keySites path).Nodup ↔ v.HasDistinctKeys := by
  induction v using Json.induction generalizing path with
  | null | bool | number | string =>
    refine iff_of_true (by simp [keySites]) ?_
    intro ms part
    cases part
  | array items ih =>
    -- The positions count up along the list, so the inner induction is for any first one.
    have hitems : ∀ i, (itemSites path i items).Nodup ↔ ∀ v ∈ items, v.HasDistinctKeys := by
      induction items with
      | nil => simp [itemSites]
      | cons v rest ihrest =>
        intro i
        rw [itemSites, List.nodup_append', List.forall_mem_cons, ih v List.mem_cons_self,
          ihrest fun v hv => ih v (List.mem_cons_of_mem _ hv),
          and_iff_left (disjoint_itemSites v rest path i)]
    rw [keySites, hitems, hasDistinctKeys_array]
  | object members ih =>
    have hmembers : ∀ i, (memberSites path i members).Nodup ↔
        (members.map (·.1)).Nodup ∧ ∀ e ∈ members, e.2.HasDistinctKeys := by
      induction members with
      | nil => simp [memberSites]
      | cons e rest ihrest =>
        intro i
        rw [memberSites, List.nodup_cons, List.nodup_append', List.mem_append, mem_memberSites_iff,
          or_iff_right (not_mem_keySites e.2 path i e.1), ih e List.mem_cons_self,
          ihrest fun e he => ih e (List.mem_cons_of_mem _ he),
          and_iff_left (disjoint_memberSites e.2 rest path i), List.map_cons, List.nodup_cons,
          List.forall_mem_cons]
        tauto
    rw [keySites, hmembers, hasDistinctKeys_object]

end Json

/-! ## Reading -/

namespace JsonReader

open Json

/-- What comes of reading tokens that hold keys: if none comes twice, reading goes on as told,
    and otherwise the first that comes again is refused. -/
inductive Yields (result : Except DecodeError Json) (sites : List (List Nat × String))
    (good : Except DecodeError Json) : Prop
  | read (nodup : sites.Nodup) (h : result = good)
  | refused {path : List Nat} {key : String} (first : FirstRepeat sites (path, key))
    (h : result = .error (.repeatedKey key))

/-- The keys of a value come between those in front of it and those behind it. -/
theorem Yields.trans {result middle good : Except DecodeError Json}
    {front inner back : List (List Nat × String)} (h : Yields result inner middle)
    (h' : Yields middle (front ++ back) good) (nodup : front.Nodup) (apart : front.Disjoint inner)
    (apart' : inner.Disjoint back) : Yields result (front ++ (inner ++ back)) good := by
  cases h with
  | refused first hresult => exact .refused (first.append nodup apart) hresult
  | read new hresult =>
    cases h' with
    | refused first hmiddle =>
      exact .refused (first.insert nodup new apart apart') (hresult.trans hmiddle)
    | read rest hmiddle =>
      obtain ⟨-, hback, hdisjoint⟩ := List.nodup_append'.1 rest
      refine .read (nodup.append (new.append hback apart') ?_) (hresult.trans hmiddle)
      exact List.disjoint_append_right.2 ⟨apart, hdisjoint⟩

/-- A value that is read in front of any tokens, if not too much is open. -/
def Reads (v : Json) : Prop :=
  ∀ (path : List Nat) (stack : List JsonFrame) (rest : List JsonToken),
    v.depth + stack.length ≤ depthLimit →
      Yields (run (.value stack) (v.tokens ++ rest)) (v.keySites path) (run (accept v stack) rest)

theorem run_cons_ok {reader next : JsonReader} {t : JsonToken} (h : step reader t = .ok next)
    (rest : List JsonToken) : run reader (t :: rest) = run next rest := by
  rw [run.eq_def]
  cases reader <;> simp only [h]

theorem run_cons_error {reader : JsonReader} {t : JsonToken} {e : DecodeError}
    (h : step reader t = .error e) (rest : List JsonToken) : run reader (t :: rest) = .error e := by
  rw [run.eq_def]
  cases reader <;> simp only [h]

theorem enter_ok {stack : List JsonFrame} (h : stack.length < depthLimit) (reader : JsonReader) :
    enter stack reader = .ok reader := if_pos h

/-- No value starts with the end of an array. -/
theorem run_firstItem (v : Json) (stack : List JsonFrame) (rest : List JsonToken) :
    run (.firstItem stack) (v.tokens ++ rest) =
      run (.value (.array [] :: stack)) (v.tokens ++ rest) := by
  have hstart : ∃ t ts, v.tokens = t :: ts ∧ t ≠ .closeArray := by
    fun_cases Json.tokens v <;> exact ⟨_, _, rfl, by simp⟩
  obtain ⟨t, ts, htokens, hne⟩ := hstart
  have hstep : step (.firstItem stack) t = step (.value (.array [] :: stack)) t := by
    cases t <;> first | rfl | exact absurd rfl hne
  rw [htokens, List.cons_append, run.eq_def, run.eq_def]
  simp only [hstep]

theorem yields_moreItems {items : List Json} (each : ∀ v ∈ items, Reads v) {stack : List JsonFrame}
    (deep : itemsDepth items + (stack.length + 1) ≤ depthLimit) (path : List Nat) (i : Nat)
    (before : List Json) (rest : List JsonToken) :
    Yields (run (.afterItem before stack) (moreItemTokens items ++ .closeArray :: rest))
      (itemSites path i items) (run (accept (.array (before ++ items)) stack) rest) := by
  induction items generalizing i before with
  | nil =>
    refine .read List.nodup_nil ?_
    rw [moreItemTokens, List.nil_append, List.append_nil, run_cons_ok rfl]
  | cons v items ih =>
    obtain ⟨hv, hitems⟩ := List.forall_mem_cons.1 each
    rw [itemsDepth] at deep
    have hfirst := hv (path ++ [i]) (.array before :: stack)
      (moreItemTokens items ++ .closeArray :: rest) (by rw [List.length_cons]; omega)
    have hothers := ih hitems (by omega) (i + 1) (before ++ [v])
    rw [List.append_assoc, List.singleton_append,
      ← List.nil_append (itemSites path (i + 1) items)] at hothers
    rw [moreItemTokens, List.cons_append, run_cons_ok rfl, List.append_assoc, itemSites]
    exact hfirst.trans hothers List.nodup_nil (List.disjoint_nil_left _)
      (disjoint_itemSites v items path i)

def keysAt (path : List Nat) (members : Members) : List (List Nat × String) :=
  members.map fun e => (path, e.1)

theorem nodup_keysAt {path : List Nat} {members : Members} (h : (members.map (·.1)).Nodup) :
    (keysAt path members).Nodup := by
  have hmap : keysAt path members = (members.map (·.1)).map (Prod.mk path) := by
    rw [keysAt, List.map_map]
    rfl
  rw [hmap]
  exact h.map (Prod.mk_right_injective path)

/-- A member in front of others, with its key read. -/
theorem yields_afterKey {v : Json} (hv : Reads v) {path : List Nat} {i : Nat} {key : String}
    {before members : Members} {stack : List JsonFrame} {tail : List JsonToken}
    {good : Except DecodeError Json} (deep : v.depth + (stack.length + 1) ≤ depthLimit)
    (distinct : ((before ++ [(key, v)]).map (·.1)).Nodup)
    (others : Yields (run (.afterMember (before ++ [(key, v)]) stack) tail)
      (keysAt path (before ++ [(key, v)]) ++ memberSites path (i + 1) members) good) :
    Yields (run (.afterKey before key stack) (.colon :: (v.tokens ++ tail)))
      (keysAt path before ++ memberSites path i ((key, v) :: members)) good := by
  have hvalue := hv (path ++ [i]) (.object before key :: stack) tail deep
  have hkeys : keysAt path before ++ memberSites path i ((key, v) :: members) =
      keysAt path (before ++ [(key, v)]) ++
        (v.keySites (path ++ [i]) ++ memberSites path (i + 1) members) := by
    simp [keysAt, memberSites]
  rw [run_cons_ok rfl, hkeys]
  refine hvalue.trans others (nodup_keysAt distinct) ?_ (disjoint_memberSites v members path i)
  intro site hsite hinner
  obtain ⟨e, -, rfl⟩ := List.mem_map.1 hsite
  exact not_mem_keySites v path i e.1 hinner

theorem step_repeatedKey {before : Members} {key : String} (h : key ∈ before.map (·.1))
    (stack : List JsonFrame) :
    step (.nextKey before stack) (.string key) = .error (.repeatedKey key) := by
  obtain ⟨e, he, hkey⟩ := List.mem_map.1 h
  exact if_pos (List.any_eq_true.2 ⟨e, he, decide_eq_true hkey⟩)

theorem step_newKey {before : Members} {key : String} (h : key ∉ before.map (·.1))
    (stack : List JsonFrame) :
    step (.nextKey before stack) (.string key) = .ok (.afterKey before key stack) := by
  refine if_neg fun hany => h ?_
  obtain ⟨e, he, hkey⟩ := List.any_eq_true.1 hany
  exact List.mem_map.2 ⟨e, he, of_decide_eq_true hkey⟩

theorem yields_moreMembers {members : Members} (each : ∀ e ∈ members, Reads e.2)
    {stack : List JsonFrame} (deep : membersDepth members + (stack.length + 1) ≤ depthLimit)
    (path : List Nat) (i : Nat) {before : Members} (distinct : (before.map (·.1)).Nodup)
    (rest : List JsonToken) :
    Yields (run (.afterMember before stack) (moreMemberTokens members ++ .closeObject :: rest))
      (keysAt path before ++ memberSites path i members)
      (run (accept (.object (before ++ members)) stack) rest) := by
  induction members generalizing i before with
  | nil =>
    refine .read ?_ ?_
    · rw [memberSites, List.append_nil]
      exact nodup_keysAt distinct
    · rw [moreMemberTokens, List.nil_append, List.append_nil, run_cons_ok rfl]
  | cons e members ih =>
    obtain ⟨key, v⟩ := e
    obtain ⟨(hv : Reads v), hmembers⟩ := List.forall_mem_cons.1 each
    rw [membersDepth] at deep
    rw [moreMemberTokens, List.cons_append, run_cons_ok rfl, List.cons_append, List.cons_append,
      List.append_assoc]
    by_cases hrepeated : key ∈ before.map (·.1)
    · -- The members before have keys of their own, so this is the first that comes again.
      have hmem : (path, key) ∈ keysAt path before := by
        obtain ⟨e, he, rfl⟩ := List.mem_map.1 hrepeated
        exact List.mem_map_of_mem he
      exact .refused ⟨_, _, rfl, hmem, nodup_keysAt distinct⟩
        (run_cons_error (step_repeatedKey hrepeated stack) _)
    · have hdistinct : ((before ++ [(key, v)]).map (·.1)).Nodup := by
        rw [List.map_append]
        exact distinct.append (List.nodup_singleton _) (by simpa using hrepeated)
      have hothers := ih hmembers (by omega) (i + 1) hdistinct
      rw [List.append_assoc, List.singleton_append] at hothers
      rw [run_cons_ok (step_newKey hrepeated stack)]
      exact yields_afterKey hv (by omega) hdistinct hothers

/-- A value is read in front of any tokens, unless a key in it comes twice. -/
theorem reads (v : Json) : Reads v := by
  induction v using Json.induction with
  | null | bool | number | string =>
    intro path stack rest _
    exact .read List.nodup_nil (run_cons_ok rfl _)
  | array items each =>
    intro path stack rest deep
    rw [depth] at deep
    have hopen : step (.value stack) .openArray = .ok (.firstItem stack) :=
      enter_ok (by omega) _
    cases items with
    | nil =>
      refine .read List.nodup_nil ?_
      rw [tokens, List.cons_append, run_cons_ok hopen, List.cons_append, run_cons_ok rfl,
        List.nil_append]
    | cons v items =>
      -- The array stands open with nothing in it, as if an item went before.
      have hdeep : itemsDepth (v :: items) + (stack.length + 1) ≤ depthLimit := by omega
      have hothers := yields_moreItems each hdeep path 0 [] rest
      rw [moreItemTokens, List.cons_append, run_cons_ok rfl] at hothers
      rw [tokens, List.cons_append, run_cons_ok hopen]
      simpa [run_firstItem, keySites] using hothers
  | object members each =>
    intro path stack rest deep
    rw [depth] at deep
    have hopen : step (.value stack) .openObject = .ok (.firstKey stack) :=
      enter_ok (by omega) _
    cases members with
    | nil =>
      refine .read List.nodup_nil ?_
      rw [tokens, List.cons_append, run_cons_ok hopen, List.cons_append, run_cons_ok rfl,
        List.nil_append]
    | cons e members =>
      obtain ⟨key, v⟩ := e
      obtain ⟨(hv : Reads v), hmembers⟩ := List.forall_mem_cons.1 each
      rw [membersDepth] at deep
      have hdistinct : (([] ++ [(key, v)] : Members).map (·.1)).Nodup := List.nodup_singleton key
      have hdeep : membersDepth members + (stack.length + 1) ≤ depthLimit := by omega
      have hothers := yields_moreMembers hmembers hdeep path 1 hdistinct rest
      have hfirst := yields_afterKey hv (by omega) hdistinct hothers
      rw [tokens, List.cons_append, run_cons_ok hopen, List.cons_append, run_cons_ok rfl]
      simpa [keysAt, keySites] using hfirst

end JsonReader

namespace Json

/-- A text of a value is read as the value exactly if no object in it has a key twice.  Otherwise
    the key that first comes for the second time is reported. -/
theorem parse_of_padded {text : String} {v : Json} (h : JsonText.Padded text.toList v)
    (deep : v.depth ≤ 127) :
    ((∃ w, parse text = .ok w) ↔ v.HasDistinctKeys) ∧ (∀ w, parse text = .ok w → w = v) ∧
      ∀ e, parse text = .error e →
        ∃ path key, e = .repeatedKey key ∧ FirstRepeat (v.keySites []) (path, key) := by
  have hreads := JsonReader.reads v [] [] [] deep
  rw [List.append_nil, ← JsonToken.ofText_of_padded h] at hreads
  change JsonReader.Yields (parse text) _ (.ok v) at hreads
  rw [← nodup_keySites_iff v []]
  cases hreads with
  | read nodup hparse =>
    refine ⟨⟨fun _ => nodup, fun _ => ⟨v, hparse⟩⟩, fun w hw => ?_, fun e he => ?_⟩
    · rw [hparse] at hw
      exact (Except.ok.inj hw).symm
    · rw [hparse] at he
      cases he
  | @refused path key first hparse =>
    refine ⟨⟨fun ⟨w, hw⟩ => ?_, fun nodup => absurd nodup first.not_nodup⟩, fun w hw => ?_,
      fun e he => ?_⟩
    · rw [hparse] at hw
      cases hw
    · rw [hparse] at hw
      cases hw
    · rw [hparse] at he
      exact ⟨path, key, (Except.error.inj he).symm, first⟩

/-- A key of the inner object comes again, in another spelling, before one of the outer object. -/
theorem parse_of_padded_inner :
    JsonText.Padded " \x7b\"a\":[\x7b\"b\":true,\"\\u0062\":null\x7d],\"a\":null\x7d".toList
        (.object [("a", .array [.object [("b", .bool true), ("b", .null)]]), ("a", .null)]) ∧
      parse " \x7b\"a\":[\x7b\"b\":true,\"\\u0062\":null\x7d],\"a\":null\x7d" =
        .error (.repeatedKey "b") := by
  refine (and_iff_left_of_imp fun document => ?_).2 ?_
  · obtain ⟨hok, -, herror⟩ := parse_of_padded document (by decide)
    have first : FirstRepeat [([], "a"), ([0, 0], "b"), ([0, 0], "b"), ([], "a")] ([0, 0], "b") :=
      ⟨[([], "a"), ([0, 0], "b")], [([], "a")], rfl, by decide, by decide⟩
    rw [← nodup_keySites_iff _ []] at hok
    generalize parse _ = result at hok herror ⊢
    cases result with
    | ok w => exact absurd (hok.1 ⟨w, rfl⟩) first.not_nodup
    | error e =>
      obtain ⟨path, key, rfl, hkey⟩ := herror e rfl
      cases first.unique hkey
      rfl
  · have bare : JsonText.Blank [] := by simp [JsonText.Blank]
    have space : JsonText.Blank [' '] := by simp [JsonText.Blank]
    have padded : ∀ {before cs v}, JsonText.Blank before → JsonText.Spelled cs v →
        JsonText.Padded (before ++ (cs ++ [])) v := fun hblank h => .intro hblank h bare
    have quoted : ∀ {body c} s, JsonText.Character body c → s.toList = [c] →
        JsonText.Quoted ('"' :: ((body ++ []) ++ ['"'])) s :=
      fun s h hs => .intro (hs ▸ .cons h .nil)
    have unit : JsonText.CodeUnit ['0', '0', '6', '2'] 'b'.toNat :=
      @JsonText.CodeUnit.intro '0' '0' '6' '2' 0 0 6 2 (.inl rfl) (.inl rfl) (.inl rfl) (.inl rfl)
    have ha := @quoted _ 'a' "a" (.plain (by decide) (by decide) (by decide)) rfl
    have hb := @quoted _ 'b' "b" (.plain (by decide) (by decide) (by decide)) rfl
    have hescaped := quoted "b" (.unit unit) rfl
    have inner := padded bare (.object (.intro bare hb bare (padded bare .true))
      (.cons (.intro bare hescaped bare (padded bare .null)) .nil))
    have outer := padded space (.object (.intro bare ha bare (padded bare (.array inner .nil)))
      (.cons (.intro bare ha bare (padded bare .null)) .nil))
    exact outer

end Json

end Protobuf
