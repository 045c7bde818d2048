import RouteBook.Proofs.OpenApi.Paths
import RouteBook.Routes.Collect

/-! The order of the routes of a document. A route is told by its method and its path, and a document has at most one
operation for each such pair. The routes are those of the pairs that have an operation: the declared pairs first, in the
order of their declaration, and then all others path by path. The paths come in the order of the path map, which is the
order of their characters and not the one they have in the text that the document was read from. -/

namespace RouteBook.Routes

open Json (Value)
open OpenApi (Document Operation PathItem itemAt? member?)

/-! ### Sorting by a declaration -/

section Declaration

variable {α κ : Type} {items : List α}

/-- A stable sort keeps the order of items that it does not tell apart. -/
theorem filter_mergeSort_of_level {le : α → α → Bool} {p : α → Bool}
    (htrans : ∀ a b c, le a b = true → le b c = true → le a c = true) (htotal : ∀ a b, (le a b || le b a) = true)
    (hlevel : ∀ a b, p a = true → p b = true → le a b = true) (items : List α) :
    (items.mergeSort le).filter p = items.filter p := by
  have hsorted : (items.filter p).Pairwise fun a b => le a b = true := by
    apply List.pairwise_of_forall_mem_list
    intro a ha b hb
    exact hlevel a b (List.mem_filter.mp ha).2 (List.mem_filter.mp hb).2
  have hsub : (items.filter p).Sublist (items.mergeSort le) :=
    List.sublist_mergeSort htrans htotal hsorted List.filter_sublist
  have hfilter : (items.filter p).Sublist ((items.mergeSort le).filter p) := by
    simpa using hsub.filter p
  have hlength : ((items.mergeSort le).filter p).length = (items.filter p).length :=
    ((List.mergeSort_perm items le).filter p).length_eq
  exact (hfilter.eq_of_length hlength.symm).symm

/-- Items of which those with a property come first. -/
theorem eq_filter_append_filter {p : α → Bool} (h : items.Pairwise fun a b => p b = true → p a = true) :
    items = items.filter p ++ items.filter (!p ·) := by
  induction items with
  | nil => rfl
  | cons item rest ih =>
      obtain ⟨hfirst, hrest⟩ := List.pairwise_cons.mp h
      cases hitem : p item with
      | true =>
          rw [List.filter_cons_of_pos hitem, List.filter_cons_of_neg (by simp [hitem]), List.cons_append, ← ih hrest]
      | false =>
          have hnone : rest.filter p = [] := by
            rw [List.filter_eq_nil_iff]
            intro other hother hp
            rw [hfirst other hother hp] at hitem
            cases hitem
          have hall : rest.filter (!p ·) = rest := by
            rw [List.filter_eq_self]
            intro other hother
            simpa using List.filter_eq_nil_iff.mp hnone other hother
          rw [List.filter_cons_of_neg (by simp [hitem]), List.filter_cons_of_pos (by simp [hitem]), hnone, hall,
            List.nil_append]

/-- Items sorted by the place of their keys in a declaration: those of each declared key, in that order, and then those
of all other keys. -/
theorem eq_flatMap_of_findIdx_le [BEq κ] [LawfulBEq κ] [DecidableEq κ] {key : α → κ} {order : List κ} (horder : order.Nodup)
    (h : items.Pairwise fun a b => order.findIdx (· = key a) ≤ order.findIdx (· = key b)) :
    items = order.flatMap (fun entry => items.filter (key · = entry)) ++ items.filter (key · ∉ order) := by
  induction order generalizing items with
  | nil => simp
  | cons entry order ih =>
      obtain ⟨hfresh, horder⟩ := List.nodup_cons.mp horder
      have hfirst : items.Pairwise fun a b => decide (key b = entry) = true → decide (key a = entry) = true := by
        refine h.imp fun {a b} hle hb => ?_
        rw [decide_eq_true_eq] at hb ⊢
        by_contra ha
        simp [List.findIdx_cons, hb, Ne.symm ha] at hle
      have hothers : (items.filter fun item => !decide (key item = entry)).Pairwise
          fun a b => order.findIdx (· = key a) ≤ order.findIdx (· = key b) := by
        refine (h.filter _).imp_of_mem fun {a b} ha hb hle => ?_
        have hkeyA : key a ≠ entry := by simpa using (List.mem_filter.mp ha).2
        have hkeyB : key b ≠ entry := by simpa using (List.mem_filter.mp hb).2
        simpa [List.findIdx_cons, hkeyA.symm, hkeyB.symm] using hle
      have hgroup : ∀ other ∈ order, (items.filter fun item => !decide (key item = entry)).filter (key · = other) =
          items.filter (key · = other) := by
        intro other hother
        rw [List.filter_filter]
        refine List.filter_congr fun item _ => ?_
        by_cases hkey : key item = other
        · have hne : other ≠ entry := fun heq => hfresh (heq ▸ hother)
          simp [hkey, hne]
        · simp [hkey]
      calc items = items.filter (key · = entry) ++ items.filter (fun item => !decide (key item = entry)) :=
            eq_filter_append_filter hfirst
        _ = items.filter (key · = entry) ++ (order.flatMap (fun other => items.filter (key · = other)) ++
              items.filter (key · ∉ entry :: order)) := by
            rw [ih horder hothers, List.flatMap_congr hgroup, List.filter_filter]
            congr 2
            refine List.filter_congr fun item _ => ?_
            by_cases hkey : key item = entry <;> simp [hkey]
        _ = _ := by rw [List.flatMap_cons, List.append_assoc]

end Declaration

/-! ### Routes by method and path -/

variable {document : Document} {route : Route} {method path : String}

/-- What tells a route from the others of its document. -/
def Route.key (route : Route) : String × String := (route.method, route.path)

/-- The documented methods in their order, with the fields of a path item that hold their operations. -/
def methodFields : List (String × String) :=
  [("GET", "get"), ("POST", "post"), ("PUT", "put"), ("PATCH", "patch"), ("DELETE", "delete")]

/-- The operation of a document for a method and a path. -/
def operationAt? (document : Document) (method path : String) : Option Operation :=
  (methodFields.lookup method).bind fun field => ((itemAt? document path).bind (member? field)).map Operation.ofTree

/-- The route of a document for a method and a path. -/
def routeAt? (document : Document) (key : String × String) : Option Route :=
  (operationAt? document key.1 key.2).map (ofOperation key.1 key.2)

/-- The documented methods on all paths of a document: path by path, and on each path in the order of the methods. -/
def slots (document : Document) : List (String × String) :=
  (document.paths.entries.map Prod.fst).flatMap fun path => methodFields.map fun method => (method.1, path)

theorem operations_ofTree (tree : Value) :
    operations (PathItem.ofTree tree) =
      methodFields.filterMap fun method => (member? method.2 tree).map fun found => (method.1, Operation.ofTree found) := by
  simp only [operations, PathItem.ofTree, methodFields, List.filterMap_cons, List.filterMap_nil, Option.map_map]
  rfl

theorem key_of_routeAt? {key : String × String} (h : routeAt? document key = some route) : route.key = key := by
  obtain ⟨operation, -, rfl⟩ := Option.map_eq_some_iff.mp h
  rfl

theorem inDocumentOrder_eq (document : Document) :
    inDocumentOrder document = (slots document).filterMap (routeAt? document) := by
  rw [inDocumentOrder, slots, List.filterMap_flatMap, List.flatMap_map]
  refine List.flatMap_congr fun entry hentry => ?_
  obtain ⟨path, item⟩ := entry
  have hlookup := (lookup_eq_some_iff_mem (OpenApi.nodup_paths document)).mpr hentry
  rw [OpenApi.lookup_paths, Option.map_eq_some_iff] at hlookup
  obtain ⟨tree, htree, rfl⟩ := hlookup
  dsimp only
  rw [operations_ofTree, List.map_filterMap, List.filterMap_map]
  refine List.filterMap_congr fun field hfield => ?_
  have hmethod : methodFields.lookup field.1 = some field.2 :=
    (lookup_eq_some_iff_mem (by decide)).mpr hfield
  simp only [Function.comp_apply, routeAt?, operationAt?, hmethod, htree, Option.bind_some, Option.map_map]
  rfl

theorem nodup_slots (document : Document) : (slots document).Nodup := by
  rw [slots, List.nodup_flatMap]
  constructor
  · intro path _
    simp [methodFields]
  · refine (OpenApi.nodup_paths document).imp fun {path other} hne => ?_
    intro slot hslot hother
    obtain ⟨_, -, rfl⟩ := List.mem_map.mp hslot
    obtain ⟨_, -, heq⟩ := List.mem_map.mp hother
    exact hne (Prod.mk.inj heq).2.symm

theorem mem_slots_iff : (method, path) ∈ slots document ↔
    method ∈ methodFields.map Prod.fst ∧ path ∈ document.paths.entries.map Prod.fst := by
  simp only [slots, List.mem_flatMap, List.mem_map, Prod.mk.injEq]
  constructor
  · rintro ⟨_, hpath, field, hfield, rfl, rfl⟩
    exact ⟨⟨field, hfield, rfl⟩, hpath⟩
  · rintro ⟨⟨field, hfield, rfl⟩, hpath⟩
    exact ⟨path, hpath, field, hfield, rfl, rfl⟩

/-- A document has routes for its slots only. -/
theorem mem_slots_of_routeAt? {key : String × String} (h : routeAt? document key = some route) :
    key ∈ slots document := by
  obtain ⟨operation, hoperation, -⟩ := Option.map_eq_some_iff.mp h
  obtain ⟨field, hfield, hfound⟩ := Option.bind_eq_some_iff.mp hoperation
  obtain ⟨found, hfound, -⟩ := Option.map_eq_some_iff.mp hfound
  obtain ⟨tree, htree, -⟩ := Option.bind_eq_some_iff.mp hfound
  refine mem_slots_iff.mpr ⟨?_, ?_⟩
  · rw [mem_keys_iff_isSome, hfield]
    rfl
  · rw [OpenApi.mem_paths_iff_isSome, htree]
    rfl

/-- The routes of some slots with a property of their method and path. -/
theorem filter_filterMap_routeAt? (p : String × String → Bool) (keys : List (String × String)) :
    (keys.filterMap (routeAt? document)).filter (fun route => p route.key) =
      (keys.filter p).filterMap (routeAt? document) := by
  rw [List.filter_filterMap, List.filterMap_filter]
  refine List.filterMap_congr fun key _ => ?_
  cases hroute : routeAt? document key with
  | none => simp
  | some route => simp [Option.filter, key_of_routeAt? hroute]

theorem filter_key_inDocumentOrder (document : Document) (key : String × String) :
    (inDocumentOrder document).filter (fun route => route.key = key) = (routeAt? document key).toList := by
  rw [inDocumentOrder_eq, filter_filterMap_routeAt? (fun other => other = key), List.filter_eq]
  by_cases hmem : key ∈ slots document
  · rw [List.count_eq_one_of_mem (nodup_slots document) hmem]
    simp only [List.replicate_one, List.filterMap_cons, List.filterMap_nil]
    cases routeAt? document key <;> rfl
  · rw [List.count_eq_zero_of_not_mem hmem]
    cases hroute : routeAt? document key with
    | none => rfl
    | some route => exact absurd (mem_slots_of_routeAt? hroute) hmem

theorem rank_eq (route : Route) : rank route = declared.findIdx (· = route.key) := rfl

theorem rank_of_not_mem (h : route.key ∉ declared) : rank route = declared.length := by
  rw [rank_eq, List.findIdx_eq_length]
  intro key hkey
  rw [decide_eq_false_iff_not]
  rintro rfl
  exact h hkey

theorem rankLe_trans (a b c : Route) (hab : decide (rank a ≤ rank b) = true) (hbc : decide (rank b ≤ rank c) = true) :
    decide (rank a ≤ rank c) = true := by
  rw [decide_eq_true_eq] at hab hbc ⊢
  exact hab.trans hbc

theorem rankLe_total (a b : Route) : (decide (rank a ≤ rank b) || decide (rank b ≤ rank a)) = true := by
  simpa using Nat.le_total (rank a) (rank b)

/-- Routes of one rank keep the order that they have in the document. -/
theorem filter_collect {p : Route → Bool} (hlevel : ∀ a b, p a = true → p b = true → rank a = rank b)
    (document : Document) : (collect document).filter p = (inDocumentOrder document).filter p := by
  apply filter_mergeSort_of_level rankLe_trans rankLe_total
  intro a b ha hb
  rw [decide_eq_true_eq, hlevel a b ha hb]

/-- The routes of a document that are not declared. -/
def undeclared (document : Document) : List Route := (collect document).filter fun route => route.key ∉ declared

theorem undeclared_eq (document : Document) :
    undeclared document = ((slots document).filter (· ∉ declared)).filterMap (routeAt? document) := by
  rw [undeclared, filter_collect, inDocumentOrder_eq, filter_filterMap_routeAt? (fun key => key ∉ declared)]
  intro a b ha hb
  rw [decide_eq_true_eq] at ha hb
  rw [rank_of_not_mem ha, rank_of_not_mem hb]

/-- The declared routes come first. -/
theorem collect_eq (document : Document) :
    collect document = declared.filterMap (routeAt? document) ++ undeclared document := by
  have hsorted : (collect document).Pairwise
      fun a b => declared.findIdx (· = a.key) ≤ declared.findIdx (· = b.key) := by
    have hpairwise := List.pairwise_mergeSort rankLe_trans rankLe_total (inDocumentOrder document)
    exact hpairwise.imp fun {a b} hle => decide_eq_true_eq.mp hle
  have hdeclared : ∀ key ∈ declared, (collect document).filter (fun route => route.key = key) =
      (routeAt? document key).toList := by
    intro key _
    rw [filter_collect, filter_key_inDocumentOrder]
    intro a b ha hb
    rw [decide_eq_true_eq] at ha hb
    rw [rank_eq, rank_eq, ha, hb]
  calc collect document
      = declared.flatMap (fun key => (collect document).filter (fun route => route.key = key)) ++
          undeclared document := eq_flatMap_of_findIdx_le (by decide) hsorted
    _ = declared.filterMap (routeAt? document) ++ undeclared document := by
        rw [List.flatMap_congr hdeclared, List.filterMap_eq_flatMap_toList]

theorem collect_eq_filterMap (document : Document) :
    collect document = (declared ++ (slots document).filter (· ∉ declared)).filterMap (routeAt? document) := by
  rw [collect_eq, undeclared_eq, List.filterMap_append]

theorem mem_collect_iff : route ∈ collect document ↔ routeAt? document route.key = some route := by
  rw [collect_eq_filterMap, List.mem_filterMap]
  constructor
  · rintro ⟨key, -, hroute⟩
    rwa [key_of_routeAt? hroute]
  · intro hroute
    refine ⟨route.key, ?_, hroute⟩
    by_cases hkey : route.key ∈ declared
    · exact List.mem_append_left _ hkey
    · exact List.mem_append_right _ (List.mem_filter.mpr ⟨mem_slots_of_routeAt? hroute, by simpa using hkey⟩)

theorem nodup_keys_collect (document : Document) : ((collect document).map Route.key).Nodup := by
  have hkeys : (declared ++ (slots document).filter (· ∉ declared)).Nodup := by
    rw [List.nodup_append]
    refine ⟨by decide, (nodup_slots document).filter _, ?_⟩
    rintro key hkey other hother rfl
    exact absurd hkey (by simpa using (List.mem_filter.mp hother).2)
  rw [collect_eq_filterMap, List.Nodup, List.pairwise_map, List.pairwise_filterMap]
  refine hkeys.imp fun {key other} hne a ha b hb => ?_
  rw [key_of_routeAt? ha, key_of_routeAt? hb]
  exact hne

/-- The routes of a document are the declared ones, in the order of their declaration, as far as the document has them,
and then all others, path by path in the order of the path map and on each path by method. Every operation of a
documented method is there once, and nothing else is. -/
theorem collect_complete (document : Document) :
    collect document = declared.filterMap (routeAt? document) ++
      ((document.paths.entries.map Prod.fst).flatMap fun path =>
        (["GET", "POST", "PUT", "PATCH", "DELETE"].filter fun method => (method, path) ∉ declared).filterMap
          fun method => routeAt? document (method, path)) ∧
    (∀ route, route ∈ collect document ↔ routeAt? document route.key = some route) ∧
    ((collect document).map Route.key).Nodup ∧
    ∀ route ∈ collect document, route.method ∈ ["GET", "POST", "PUT", "PATCH", "DELETE"] := by
  refine ⟨?_, fun _ => mem_collect_iff, nodup_keys_collect document, fun route hroute => ?_⟩
  · have hmethods : ∀ path : String, (methodFields.map fun field => (field.1, path)) =
        ["GET", "POST", "PUT", "PATCH", "DELETE"].map fun method => (method, path) := fun path => rfl
    rw [collect_eq, undeclared_eq, slots, List.filter_flatMap, List.filterMap_flatMap]
    congr 1
    refine List.flatMap_congr fun path _ => ?_
    rw [hmethods, List.filter_map, List.filterMap_map]
    rfl
  · exact (mem_slots_iff.mp (mem_slots_of_routeAt? (mem_collect_iff.mp hroute))).1

/-! ### The order of the text -/

theorem pairwise_slots (document : Document) : (slots document).Pairwise fun a b => a.2 ≤ b.2 := by
  rw [slots, List.pairwise_flatMap]
  constructor
  · intro path _
    rw [List.pairwise_map]
    exact List.pairwise_of_forall fun _ _ => String.le_refl path
  · rw [List.pairwise_map]
    refine document.paths.sorted.imp fun {entry later} hless slot hslot other hother => ?_
    obtain ⟨_, -, rfl⟩ := List.mem_map.mp hslot
    obtain ⟨_, -, rfl⟩ := List.mem_map.mp hother
    exact Std.le_of_lt hless

/-- Routes that are not declared come in the order of their paths. -/
theorem pairwise_undeclared (document : Document) : (undeclared document).Pairwise fun a b => a.path ≤ b.path := by
  rw [undeclared_eq, List.pairwise_filterMap]
  refine ((pairwise_slots document).filter _).imp fun {key other} hle a ha b hb => ?_
  rwa [← key_of_routeAt? ha, ← key_of_routeAt? hb] at hle

/-- Routes come with their paths in the order that a list has these paths in. -/
def FollowsPaths (paths : List String) (routes : List Route) : Prop :=
  routes.Pairwise fun a b => paths.idxOf a.path ≤ paths.idxOf b.path

/-- Of two items in a list that is sorted in two ways one comes first in both. -/
theorem comparable_of_pairwise {α β γ : Type} [Preorder β] [Preorder γ] {f : α → β} {g : α → γ} {items : List α}
    (hf : items.Pairwise fun a b => f a ≤ f b) (hg : items.Pairwise fun a b => g a ≤ g b) {a b : α} (ha : a ∈ items)
    (hb : b ∈ items) : (f a ≤ f b ∧ g a ≤ g b) ∨ (f b ≤ f a ∧ g b ≤ g a) := by
  have hsymm : Std.Symm fun a b : α => (f a ≤ f b ∧ g a ≤ g b) ∨ (f b ≤ f a ∧ g b ≤ g a) := ⟨fun a b h => h.symm⟩
  have hboth : items.Pairwise fun a b => (f a ≤ f b ∧ g a ≤ g b) ∨ (f b ≤ f a ∧ g b ≤ g a) :=
    (hf.and hg).imp Or.inl
  have hself : ∀ item ∈ items, (f item ≤ f item ∧ g item ≤ g item) ∨ (f item ≤ f item ∧ g item ≤ g item) :=
    fun item _ => Or.inl ⟨le_rfl, le_rfl⟩
  exact hboth.forall_of_forall hself ha hb

theorem pairwise_idxOf {paths : List String} (h : paths.Nodup) :
    paths.Pairwise fun a b => paths.idxOf a ≤ paths.idxOf b := by
  rw [List.pairwise_iff_getElem]
  intro i j hi hj hlt
  rw [h.idxOf_getElem, h.idxOf_getElem]
  exact hlt.le

/-- Routes that are sorted by their paths come in the order of a list if and only if the list has their paths sorted. -/
theorem followsPaths_iff {paths : List String} {routes : List Route} (hdistinct : paths.Nodup)
    (hpaths : ∀ route ∈ routes, route.path ∈ paths) (hsorted : routes.Pairwise fun a b => a.path ≤ b.path) :
    FollowsPaths paths routes ↔ (paths.filter (· ∈ routes.map Route.path)).Pairwise (· < ·) := by
  have hindex := (pairwise_idxOf hdistinct).filter (· ∈ routes.map Route.path)
  have hnodup := hdistinct.filter (· ∈ routes.map Route.path)
  have hmem : ∀ route ∈ routes, route.path ∈ paths.filter (· ∈ routes.map Route.path) := by
    intro route hroute
    rw [List.mem_filter, decide_eq_true_eq]
    exact ⟨hpaths route hroute, List.mem_map_of_mem hroute⟩
  constructor
  · intro hfollows
    refine (hindex.and hnodup).imp_of_mem fun {path other} hpath hother hle => ?_
    obtain ⟨a, ha, rfl⟩ := List.mem_map.mp (of_decide_eq_true (List.mem_filter.mp hpath).2)
    obtain ⟨b, hb, rfl⟩ := List.mem_map.mp (of_decide_eq_true (List.mem_filter.mp hother).2)
    obtain ⟨-, hless⟩ | ⟨hgreater, -⟩ := comparable_of_pairwise hfollows hsorted ha hb
    · exact lt_of_le_of_ne hless hle.2
    · exact absurd ((List.idxOf_inj (hpaths a ha)).mp (le_antisymm hle.1 hgreater)) hle.2
  · intro hincreasing
    refine hsorted.imp_of_mem fun {a b} ha hb hle => ?_
    have hweak := hincreasing.imp fun {path other} hless => le_of_lt hless
    obtain ⟨hfirst, -⟩ | ⟨-, hgreater⟩ := comparable_of_pairwise hindex hweak (hmem a ha) (hmem b hb)
    · exact hfirst
    · rw [le_antisymm hle hgreater]

theorem path_mem_textPaths {text : String} (h : Document.parse text = .ok document) (hroute : route ∈ undeclared document) :
    route.path ∈ OpenApi.textPaths text := by
  have hslot := mem_slots_of_routeAt? (mem_collect_iff.mp (List.mem_filter.mp hroute).1)
  exact (OpenApi.mem_paths_iff h).mp (mem_slots_iff.mp hslot).2

/-- The page of a document that was read from a text shows the routes that are not declared, behind the declared ones,
in the order of their paths. This is the order of the text if and only if the text has these paths in order. -/
theorem textOrder_iff {text : String} (title : String) (hparse : Document.parse text = .ok document)
    (hdistinct : (OpenApi.textPaths text).Nodup) :
    markdownFor document title = markdown title (declared.filterMap (routeAt? document) ++ undeclared document) ∧
    (∀ route ∈ undeclared document, route.path ∈ OpenApi.textPaths text) ∧
    (undeclared document).Pairwise (fun a b => a.path ≤ b.path) ∧
    (FollowsPaths (OpenApi.textPaths text) (undeclared document) ↔
      ((OpenApi.textPaths text).filter (· ∈ (undeclared document).map Route.path)).Pairwise (· < ·)) := by
  have hpaths : ∀ route ∈ undeclared document, route.path ∈ OpenApi.textPaths text :=
    fun _ => path_mem_textPaths hparse
  have hsorted := pairwise_undeclared document
  exact ⟨by rw [markdownFor, collect_eq], hpaths, hsorted, followsPaths_iff hdistinct hpaths hsorted⟩

/-- Two paths that are not in order. -/
def unsortedText : String :=
  "\x7b\"openapi\":\"3.1.0\",\"info\":\x7b\"title\":\"\",\"version\":\"\"\x7d,\"paths\":" ++
    "\x7b\"/b\":\x7b\"get\":\x7b\"responses\":\x7b\x7d\x7d\x7d,\"/a\":\x7b\"get\":\x7b\"responses\":\x7b\x7d\x7d\x7d\x7d\x7d"

theorem unsortedText_routes : (Document.parse unsortedText).toOption.map
    (fun document => (undeclared document).map Route.path) = some ["/a", "/b"] := by
  cbv

theorem unsortedText_paths : OpenApi.textPaths unsortedText = ["/b", "/a"] := by cbv

/-- The route of the first path of the text comes last. -/
theorem textOrder_iff_unsorted : ∃ document, Document.parse unsortedText = .ok document ∧
    (OpenApi.textPaths unsortedText).Nodup ∧ (undeclared document).map Route.path = ["/a", "/b"] ∧
    ¬FollowsPaths (OpenApi.textPaths unsortedText) (undeclared document) := by
  have hroutes := unsortedText_routes
  cases hparse : Document.parse unsortedText with
  | error fault =>
      rw [hparse] at hroutes
      cases hroutes
  | ok document =>
      rw [hparse] at hroutes
      have hpaths : (undeclared document).map Route.path = ["/a", "/b"] := Option.some.inj hroutes
      have hdistinct : (OpenApi.textPaths unsortedText).Nodup := by
        rw [unsortedText_paths]
        decide
      refine ⟨document, rfl, hdistinct, hpaths, fun hfollows => ?_⟩
      have hsorted := (textOrder_iff "" hparse hdistinct).2.2.2.mp hfollows
      rw [unsortedText_paths, hpaths] at hsorted
      revert hsorted
      decide

end RouteBook.Routes
