import DynamicTorque.Configuration.StaticCounter
import DynamicTorque.Model.ConfigFile
import Mathlib.Data.List.Induction

/-!
# The syntax of static worker nodes

`parse_static_worker_nodes` reads items `x[:location]` that are joined by a plus sign. It has a path
of its own for a text of digits, which is one item without a location; an item whose count is not
all digits is skipped.

* `parseStaticWorkerNodes_eq`: if there is a default location, the result is what the requests of
  the items add up to.
* `static_syntax`: items and malformed pieces that are printed and read back.
* `static_consumers_run_iff`: the result can be used exactly if there is a default location and
  every location that is named is mapped.
-/

open Python

namespace DynamicTorque

/-! ### The default location -/

/-- The locations in the default zone, in dictionary order. -/
def Config.locationsInDefaultZone (cfg : Config) : List String :=
  (cfg.locationProperties.entries.filter fun loc ↦ loc.2 = cfg.cloudAvailabilityZone).map Sigma.fst

/-- The parser takes the last of them. -/
theorem staticLocation_eq (cfg : Config) :
    cfg.staticLocation = cfg.locationsInDefaultZone.getLast? := by
  rw [Config.staticLocation, Config.locationsInDefaultZone]
  induction cfg.locationProperties.entries using List.reverseRecOn with
  | nil => rfl
  | append_singleton entries loc ih =>
    rw [List.foldl_append, ih, List.filter_append, List.map_append, List.getLast?_append]
    by_cases h : loc.2 = cfg.cloudAvailabilityZone
    · simp [h]
    · simp [h]

theorem mem_of_staticLocation {cfg : Config} {location : String}
    (h : cfg.staticLocation = some location) : location ∈ cfg.locationProperties := by
  rw [staticLocation_eq] at h
  obtain ⟨loc, hloc, rfl⟩ := List.mem_map.1 (List.mem_of_getLast? h)
  exact AList.mem_keys.2 (List.mem_map_of_mem (List.mem_of_mem_filter hloc))

/-! ### Items -/

/-- The request of an item: a location and a count, if the count is all digits. -/
def itemRequest (defaultLocation item : String) : Option (String × ℕ) :=
  match split ':' item with
  | [] => none
  | count :: rest =>
    if isdigit count then some (rest.headD defaultLocation, digitsValue count.toList) else none

/-- The requests of a text. -/
def requestsOf (defaultLocation text : String) : List (String × ℕ) :=
  (split '+' text).filterMap (itemRequest defaultLocation)

/-- The object that requests add up to. -/
def addRequests (requests : List (String × ℕ)) : StaticVMs :=
  requests.foldl (fun reqs request ↦ reqs.addStaticReq request.1 request.2) []

section Items

variable {cfg : Config} {defaultLocation text item : String} {reqs : StaticVMs}

theorem counted_addRequests (requests : List (String × ℕ)) :
    Counted requests [] (addRequests requests) := by
  induction requests using List.reverseRecOn with
  | nil => exact .start
  | append_singleton requests request ih =>
    rw [addRequests, List.foldl_append]
    exact ih.add request.1 request.2

/-- **The loop body.** -/
theorem parseStaticReq_eq : parseStaticReq defaultLocation reqs item =
    .ok ((itemRequest defaultLocation item).elim reqs
      fun request ↦ reqs.addStaticReq request.1 request.2) := by
  obtain ⟨count, rest, hsplit⟩ := List.exists_cons_of_ne_nil (split_ne_nil ':' item)
  simp only [parseStaticReq, itemRequest, hsplit]
  by_cases hdigits : isdigit count = true
  · rw [if_pos hdigits, if_pos hdigits, int_of_isdigit hdigits]
    rcases rest with _ | ⟨location, rest⟩
    · rfl
    · rfl
  · rw [if_neg hdigits, if_neg hdigits]
    rfl

/-- The loop. -/
theorem foldlM_parseStaticReq (items : List String) (reqs : StaticVMs) :
    items.foldlM (parseStaticReq defaultLocation) reqs =
      .ok ((items.filterMap (itemRequest defaultLocation)).foldl
        (fun reqs request ↦ reqs.addStaticReq request.1 request.2) reqs) := by
  induction items generalizing reqs with
  | nil => rfl
  | cons item items ih =>
    rw [List.foldlM_cons, parseStaticReq_eq]
    show items.foldlM (parseStaticReq defaultLocation) _ = _
    rw [ih, List.filterMap_cons]
    cases itemRequest defaultLocation item with
    | none => rfl
    | some request => rfl

/-- A text of digits is one item. -/
theorem requestsOf_of_isdigit (h : isdigit text = true) :
    requestsOf defaultLocation text = [(defaultLocation, digitsValue text.toList)] := by
  have hmem : ∀ {sep : Char}, sep.isDigit = false → sep ∉ text.toList := fun hsep hmem ↦ by
    rw [isDigit_of_mem_isDigits h hmem] at hsep
    exact Bool.false_ne_true hsep.symm
  rw [requestsOf, split_of_notMem (hmem (by decide)), List.filterMap_cons, itemRequest,
    split_of_notMem (hmem (by decide))]
  simp [h]

/-- **`parse_static_worker_nodes`**, if there is a default location. -/
theorem parseStaticWorkerNodes_eq (hlocation : cfg.staticLocation = some defaultLocation)
    (hne : defaultLocation ≠ "") (text : String) :
    parseStaticWorkerNodes cfg text =
      .ok (some (addRequests (requestsOf defaultLocation text))) := by
  rw [parseStaticWorkerNodes, hlocation]
  show (if defaultLocation = "" then _ else _) = _
  rw [if_neg hne]
  by_cases hdigits : isdigit text = true
  · rw [if_pos hdigits, int_of_isdigit hdigits, requestsOf_of_isdigit hdigits]
    rfl
  · rw [if_neg hdigits, foldlM_parseStaticReq]
    rfl

/-- There is nothing to return without a default location. -/
theorem parseStaticWorkerNodes_of_not
    (h : ¬∃ location, cfg.staticLocation = some location ∧ location ≠ "") (text : String) :
    parseStaticWorkerNodes cfg text = .ok none := by
  rw [parseStaticWorkerNodes]
  split
  · rfl
  · rename_i location hlocation
    rw [if_pos (by_contra fun hne ↦ h ⟨location, hlocation, hne⟩)]

theorem mem_requestsOf {request : String × ℕ} : request ∈ requestsOf defaultLocation text ↔
    ∃ item ∈ split '+' text, ∃ count rest, split ':' item = count :: rest ∧ isdigit count = true ∧
      request = (rest.headD defaultLocation, digitsValue count.toList) := by
  rw [requestsOf, List.mem_filterMap]
  refine exists_congr fun item ↦ and_congr_right fun _ ↦ ?_
  obtain ⟨count, rest, hsplit⟩ := List.exists_cons_of_ne_nil (split_ne_nil ':' item)
  simp only [itemRequest, hsplit]
  constructor
  · intro h
    split at h
    · rename_i hdigits
      exact ⟨count, rest, rfl, hdigits, (Option.some.inj h).symm⟩
    · exact absurd h (Option.some_ne_none _).symm
  · rintro ⟨count', rest', hcons, hdigits, rfl⟩
    obtain ⟨rfl, rfl⟩ := List.cons.inj hcons
    rw [if_pos hdigits]

end Items

/-! ### Printing and reading -/

/-- An item: a decimal count, and possibly a location. -/
structure StaticItem where
  count : String
  location : Option String
  isdigit_count : isdigit count = true
  location_ne : ∀ l ∈ location, l ≠ "" ∧ ':' ∉ l.toList ∧ '+' ∉ l.toList

/-- A piece that is no item. -/
structure Malformed where
  text : String
  noPlus : '+' ∉ text.toList
  not_isdigit : ∀ count ∈ (split ':' text).head?, isdigit count = false

namespace StaticItem

/-- `count[:location]`. -/
def text (item : StaticItem) : String :=
  match item.location with
  | none => item.count
  | some location => item.count ++ String.singleton ':' ++ location

/-- The location that the item counts for. -/
def placed (defaultLocation : String) (item : StaticItem) : String :=
  item.location.getD defaultLocation

def number (item : StaticItem) : ℕ :=
  digitsValue item.count.toList

theorem notMem_count (item : StaticItem) {c : Char} (hc : c.isDigit = false) :
    c ∉ item.count.toList := fun hmem ↦ by
  rw [isDigit_of_mem_isDigits item.isdigit_count hmem] at hc
  exact Bool.false_ne_true hc.symm

theorem noPlus (item : StaticItem) : '+' ∉ item.text.toList := by
  have hcount : '+' ∉ item.count.toList := item.notMem_count (by decide)
  rw [text]
  split
  · exact hcount
  · rename_i location hlocation
    have hplus := (item.location_ne location hlocation).2.2
    simp [hcount, hplus]

theorem split_text (item : StaticItem) :
    split ':' item.text = item.count :: item.location.toList := by
  have hcount : ':' ∉ item.count.toList := item.notMem_count (by decide)
  rw [text]
  split
  · rename_i hnone
    rw [split_of_notMem hcount, hnone]
    rfl
  · rename_i location hlocation
    have hcolon := (item.location_ne location hlocation).2.1
    rw [split_append hcount, split_of_notMem hcolon, hlocation]
    rfl

/-- **An item** is read as it was printed. -/
theorem itemRequest_text (defaultLocation : String) (item : StaticItem) :
    itemRequest defaultLocation item.text = some (item.placed defaultLocation, item.number) := by
  simp only [itemRequest, item.split_text]
  rw [if_pos item.isdigit_count, placed, number]
  rcases item.location with _ | location
  · rfl
  · rfl

end StaticItem

theorem Malformed.itemRequest_text (defaultLocation : String) (piece : Malformed) :
    itemRequest defaultLocation piece.text = none := by
  obtain ⟨count, rest, hsplit⟩ := List.exists_cons_of_ne_nil (split_ne_nil ':' piece.text)
  have hdigits : isdigit count = false := piece.not_isdigit count (by rw [hsplit]; rfl)
  simp only [itemRequest, hsplit]
  rw [if_neg (by rw [hdigits]; exact Bool.false_ne_true)]

/-- What is printed for a piece. -/
def pieceText : StaticItem ⊕ Malformed → String :=
  Sum.elim StaticItem.text Malformed.text

/-- The items among the pieces. -/
def itemsOf (pieces : List (StaticItem ⊕ Malformed)) : List StaticItem :=
  pieces.filterMap Sum.getLeft?

section Syntax

variable {cfg : Config} {defaultLocation : String}

/-- The requests of a text are those of its items. -/
theorem requestsOf_join (pieces : List (StaticItem ⊕ Malformed)) :
    requestsOf defaultLocation (join '+' (pieces.map pieceText)) =
      (itemsOf pieces).map fun item ↦ (item.placed defaultLocation, item.number) := by
  rcases eq_or_ne pieces [] with rfl | hpieces
  · rfl
  · have hplus : ∀ item ∈ pieces.map pieceText, '+' ∉ item.toList := by
      refine List.forall_mem_map.2 fun piece _ ↦ ?_
      rcases piece with item | piece
      · exact item.noPlus
      · exact piece.noPlus
    rw [requestsOf, split_join hplus (by simpa using hpieces), itemsOf]
    clear hpieces hplus
    induction pieces with
    | nil => rfl
    | cons piece pieces ih =>
      rw [List.map_cons]
      rcases piece with item | piece
      · have hitem : itemRequest defaultLocation (pieceText (.inl item)) =
            some (item.placed defaultLocation, item.number) := item.itemRequest_text defaultLocation
        rw [List.filterMap_cons_some hitem, ih]
        rfl
      · have hpiece : itemRequest defaultLocation (pieceText (.inr piece)) = none :=
          piece.itemRequest_text defaultLocation
        rw [List.filterMap_cons_none hpiece, ih]
        rfl

/-- What is added for a location is what the items say that count for it. -/
theorem addedAt_map (items : List StaticItem) (location : String) :
    addedAt (items.map fun item ↦ (item.placed defaultLocation, item.number)) location =
      ((items.filter fun item ↦ item.placed defaultLocation = location).map
        StaticItem.number).sum := by
  rw [addedAt, List.filter_map, List.map_map]
  rfl

/-- **The static syntax.** If the last location in the default zone has a name, then items that are
printed and joined, with malformed pieces anywhere between them, are read as the totals of the
items for each location. -/
theorem static_syntax (cfg : Config) (defaultLocation : String)
    (hlocation : cfg.locationsInDefaultZone.getLast? = some defaultLocation)
    (hne : defaultLocation ≠ "") (pieces : List (StaticItem ⊕ Malformed)) :
    ∃ reqs, parseStaticWorkerNodes cfg (join '+' (pieces.map pieceText)) = .ok (some reqs) ∧
      parseStaticWorkerNodes cfg (join '+' ((itemsOf pieces).map StaticItem.text)) =
        .ok (some reqs) ∧
      (reqs.map StaticReq.location).Nodup ∧
      (∀ l, l ∈ reqs.map StaticReq.location ↔
        ∃ item ∈ itemsOf pieces, item.placed defaultLocation = l) ∧
      ∀ req ∈ reqs, req.numOfVm =
        (((itemsOf pieces).filter fun item ↦ item.placed defaultLocation = req.location).map
          StaticItem.number).sum := by
  have hitems : (itemsOf pieces).map StaticItem.text =
      ((itemsOf pieces).map Sum.inl).map pieceText := by
    rw [List.map_map]
    rfl
  have hself : itemsOf ((itemsOf pieces).map Sum.inl) = itemsOf pieces := by
    rw [itemsOf, List.filterMap_map]
    exact List.filterMap_some
  rw [← staticLocation_eq] at hlocation
  refine ⟨_, parseStaticWorkerNodes_eq hlocation hne _, ?_⟩
  rw [hitems, parseStaticWorkerNodes_eq hlocation hne, requestsOf_join, requestsOf_join, hself]
  have hcounted := counted_addRequests
    ((itemsOf pieces).map fun item ↦ (item.placed defaultLocation, item.number))
  refine ⟨rfl, hcounted.nodup, fun l ↦ ?_, fun req hreq ↦ ?_⟩
  · rw [hcounted.locations, List.map_map, List.mem_map]
    rfl
  · rw [← countAt_of_mem hcounted.nodup hreq, hcounted.counted, addedAt_map]
    simp

/-- One location, which is in the default zone. -/
def oneRoom : Config :=
  { locationProperties := AList.singleton "room" "noblepark" }

/-- `2+x+3:room` are five VMs. -/
theorem static_syntax_room :
    ∃ reqs, parseStaticWorkerNodes oneRoom (join '+' ["2", "x", "3:room"]) = .ok (some reqs) ∧
      ∀ req ∈ reqs, req.location = "room" → req.numOfVm = 5 := by
  obtain ⟨reqs, hparse, -, -, -, htotal⟩ := static_syntax oneRoom "room" (by decide) (by decide)
    [.inl ⟨"2", none, by decide, by simp⟩, .inr ⟨"x", by decide, by decide⟩,
      .inl ⟨"3", some "room", by decide, by simp⟩]
  refine ⟨reqs, hparse, fun req hreq hroom ↦ ?_⟩
  rw [htotal req hreq, hroom]
  decide

/-- A location in the default zone may have no name, and then nothing is read. -/
theorem nothing_is_read :
    ¬∀ (cfg : Config) (items : List StaticItem), items ≠ [] →
      (∃ l, cfg.locationProperties.lookup l = some cfg.cloudAvailabilityZone) →
      ∃ reqs, parseStaticWorkerNodes cfg (join '+' (items.map StaticItem.text)) =
        .ok (some reqs) := by
  intro h
  obtain ⟨reqs, hparse⟩ := h { locationProperties := AList.singleton "" "noblepark" }
    [⟨"2", none, by decide, by simp⟩] (List.cons_ne_nil _ _) ⟨"", by decide⟩
  have hnone : parseStaticWorkerNodes { locationProperties := AList.singleton "" "noblepark" } "2" =
      .ok none := by decide
  exact absurd (Except.ok.inj (hnone.symm.trans hparse)) (Option.some_ne_none reqs).symm

end Syntax

/-! ### The consumers -/

/-- `need_vm` and `get_provision_list` do not raise. `need_more` only compares numbers, and does not
raise. -/
structure StaticVMs.Usable (props : LocationProperties) (reqs : StaticVMs) : Prop where
  needVm : ∀ zone, Returns (reqs.needVm zone props)
  provisionList : ∀ flavor resource, Returns (reqs.getProvisionList flavor resource props)

section Consumers

variable {props : LocationProperties} {reqs : StaticVMs}

theorem usable_of_mapped (hmapped : ∀ req ∈ reqs, req.location ∈ props) : reqs.Usable props where
  needVm := fun zone ↦ by
    obtain ⟨found, reqs', hneed, -⟩ := needVm_answers zone hmapped
    exact ⟨_, hneed⟩
  provisionList := fun _ _ ↦ ⟨_, getProvisionList_of_mapped hmapped⟩

/-- `get_provision_list` looks up every location. -/
theorem mapped_of_getProvisionList {flavor : VMFlavor} {resource : String}
    (hprops : ¬props.entries.isEmpty = true)
    (h : Returns (reqs.getProvisionList flavor resource props)) :
    ∀ req ∈ reqs, req.location ∈ props := by
  induction reqs with
  | nil => exact fun _ hreq ↦ absurd hreq List.not_mem_nil
  | cons req rest ih =>
    rw [StaticVMs.getProvisionList, if_neg hprops, returns_bind] at h
    obtain ⟨z, hz, hzone⟩ := h
    obtain ⟨zone, -, hrest⟩ := returns_bind.1 hzone
    obtain ⟨tail, htail, -⟩ := returns_bind.1 hrest
    refine List.forall_mem_cons.2 ⟨?_, ih ⟨tail, htail⟩⟩
    rw [Dict.get] at hz
    split at hz
    · rename_i hlookup
      exact AList.lookup_isSome.1 (Option.isSome_iff_exists.2 ⟨_, hlookup⟩)
    · exact absurd hz.symm (by simp)

/-- **The consumers can use what the parser accepts** exactly if the last location in the default
zone has a name, and every location that is named with a count is mapped. -/
theorem static_consumers_run_iff (cfg : Config) (text : String) :
    (∃ reqs, parseStaticWorkerNodes cfg text = .ok (some reqs) ∧
      reqs.Usable cfg.locationProperties) ↔
    (∃ l, cfg.locationsInDefaultZone.getLast? = some l ∧ l ≠ "") ∧
      ∀ item ∈ split '+' text, ∀ count location rest, split ':' item = count :: location :: rest →
        isdigit count = true → location ∈ cfg.locationProperties := by
  rw [← staticLocation_eq]
  constructor
  · rintro ⟨reqs, hparse, husable⟩
    have hdefault : ∃ l, cfg.staticLocation = some l ∧ l ≠ "" := by
      by_contra hnone
      rw [parseStaticWorkerNodes_of_not hnone] at hparse
      exact absurd (Except.ok.inj hparse).symm (Option.some_ne_none _)
    refine ⟨hdefault, fun item hitem count location rest hsplit hdigits ↦ ?_⟩
    obtain ⟨defaultLocation, hlocation, hne⟩ := hdefault
    rw [parseStaticWorkerNodes_eq hlocation hne] at hparse
    obtain rfl := Option.some.inj (Except.ok.inj hparse)
    have hmapped := mapped_of_getProvisionList (entries_of_mem (mem_of_staticLocation hlocation))
      (husable.provisionList ⟨"", "", 0⟩ "")
    -- the location has an entry
    have hrequest : (location, digitsValue count.toList) ∈ requestsOf defaultLocation text :=
      mem_requestsOf.2 ⟨item, hitem, count, location :: rest, hsplit, hdigits, rfl⟩
    have hentry : location ∈ (addRequests (requestsOf defaultLocation text)).map
        StaticReq.location :=
      ((counted_addRequests _).locations location).2 (List.mem_map_of_mem hrequest)
    obtain ⟨req, hreq, rfl⟩ := List.mem_map.1 hentry
    exact hmapped req hreq
  · rintro ⟨⟨defaultLocation, hlocation, hne⟩, hnamed⟩
    refine ⟨_, parseStaticWorkerNodes_eq hlocation hne text, usable_of_mapped ?_⟩
    refine (counted_addRequests _).mapped fun l hl ↦ ?_
    obtain ⟨request, hrequest, rfl⟩ := List.mem_map.1 hl
    obtain ⟨item, hitem, count, rest, hsplit, hdigits, rfl⟩ := mem_requestsOf.1 hrequest
    rcases rest with _ | ⟨location, rest⟩
    · exact mem_of_staticLocation hlocation
    · exact hnamed item hitem count location rest hsplit hdigits

/-- `2:hall` is accepted where only `room` is mapped, and `need_vm` raises then. -/
theorem unmapped_location_raises :
    ¬∀ (cfg : Config) (text : String), ∃ reqs, parseStaticWorkerNodes cfg text = .ok (some reqs) ∧
      reqs.Usable cfg.locationProperties := by
  intro h
  obtain ⟨reqs, hparse, husable⟩ := h oneRoom "2:hall"
  have hread : parseStaticWorkerNodes oneRoom "2:hall" = .ok (some [⟨"hall", 2⟩]) := by decide
  obtain rfl := Option.some.inj (Except.ok.inj (hread.symm.trans hparse))
  have hraises : StaticVMs.needVm none oneRoom.locationProperties [⟨"hall", 2⟩] =
      .error (.keyError "hall") := by rfl
  obtain ⟨result, hresult⟩ := husable.needVm none
  exact not_returns_error _ ⟨result, hraises ▸ hresult⟩

end Consumers

end DynamicTorque
