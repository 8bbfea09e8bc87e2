import Upnp.Gena.PropertySet

/-!
# Building actions and property sets

`UpnpMakeAction` and `UpnpCreatePropertySet` take all arguments at once, `UpnpAddToAction` and
`UpnpAddToPropertySet` take one of them and find the place for it in the document again.
-/

namespace Upnp.Api.Builders

open Upnp.Lib Upnp.Xml

/-- The children of a document. -/
abbrev Document := List Content

/-- Why a builder does not return. -/
inductive Crash where
  /-- `sprintf` writes behind `ActBuff`. -/
  | overflow
  /-- A pointer is used that is NULL, or is no element. -/
  | null
  | parser (fault : Xml.Fault)

def HEADER_LENGTH : Nat := 2000
def UPNP_E_SUCCESS : Int := 0
def UPNP_E_INVALID_PARAM : Int := -101

/-- The name and the value of an argument; `none` for NULL. -/
abbrev Argument := Option CString × Option CString

/-- `UpnpParse_Buffer`; `n` is what the variables of the parser hold at first. -/
def UpnpParse_Buffer (fuel : Nat) (n : NextNode) (buff : CString) :
    Except Crash (Option Document) :=
  if buff = [] then return none
  else
    match readDocument fuel n buff with
    | .ok doc => return some doc
    | .error .FATAL_ERROR_DURING_PARSING => return none
    | .error fault => throw (.parser fault)

/-! ## One argument -/

/-- An element with a text, as `createElement`, `createTextNode` and `appendChild` make it. -/
def argumentNode (argName argValue : CString) : Content := .element argName [] [.text argValue]

/-- The element inside an `e:property`. -/
def propertyNode (argName argValue : CString) : Content :=
  .element "e:property".toList [] [argumentNode argName argValue]

/-- `appendChild` of a new node to the first child of the document. -/
def appendToFirst (doc : Option Document) (node : Content) : Except Crash Document :=
  match doc with
  | some (.element nodeName attributes children :: rest) =>
    return .element nodeName attributes (children ++ [node]) :: rest
  | _ => throw .null

/-- An argument whose name or value is NULL is left out. -/
def addArgument (make : CString → CString → Content) (doc : Option Document) :
    Argument → Except Crash (Option Document)
  | (some argName, some argValue) => some <$> appendToFirst doc (make argName argValue)
  | _ => return doc

/-- `va_arg`; what is behind the last argument is not used. -/
def vaArg : List (Option CString) → Option CString × List (Option CString)
  | [] => (none, [])
  | arg :: argList => (arg, argList)

/-- The loop over the arguments, from the name of the first one on. -/
def argumentLoop (make : CString → CString → Content) :
    Nat → Option CString → List (Option CString) → Option Document → Except Crash (Option Document)
  | 0, _, _, doc => return doc
  | idx + 1, argName, argList, doc => do
    let (argValue, argList) := vaArg argList
    let doc ← addArgument make doc (argName, argValue)
    let (argName, argList) := vaArg argList
    argumentLoop make idx argName argList doc

/-! ## Actions -/

/-- What `sprintf` writes to `ActBuff`. -/
def actionText (actionName servType : CString) : CString :=
  "<u:".toList ++ actionName ++ " xmlns:u=\"".toList ++ servType ++ "\"></u:".toList ++ actionName ++
    ">".toList

/-- The document without arguments. -/
def newAction (fuel : Nat) (n : NextNode) (actionName servType : CString) :
    Except Crash (Option Document) :=
  if (actionText actionName servType).length < HEADER_LENGTH then
    UpnpParse_Buffer fuel n (actionText actionName servType)
  else throw .overflow

/-- `UpnpMakeAction`, when there is memory. -/
def UpnpMakeAction (fuel : Nat) (n : NextNode) (actionName servType : Option CString) (numArg : Int)
    (arg : Option CString) (argList : List (Option CString)) : Except Crash (Option Document) :=
  match actionName, servType with
  | some actionName, some servType => do
    let actionDoc ← newAction fuel n actionName servType
    if 0 < numArg then argumentLoop argumentNode numArg.toNat arg argList actionDoc
    else return actionDoc
  | _, _ => return none

/-- `UpnpAddToAction`, when there is memory: what it returns, and what `ActionDoc` points to. -/
def UpnpAddToAction (fuel : Nat) (n : NextNode) (actionDoc : Option Document)
    (actionName servType : Option CString) (arg : Argument) : Except Crash (Int × Option Document) :=
  match actionName, servType with
  | some actionName, some servType => do
    let actionDoc ←
      match actionDoc with
      | none => newAction fuel n actionName servType
      | some actionDoc => pure (some actionDoc)
    let actionDoc ← addArgument argumentNode actionDoc arg
    return (UPNP_E_SUCCESS, actionDoc)
  | _, _ => return (UPNP_E_INVALID_PARAM, actionDoc)

/-! ## Property sets -/

/-- `BlankDoc`. -/
def BlankDoc : CString :=
  "<e:propertyset xmlns:e=\"urn:schemas-upnp-org:event-1-0\"></e:propertyset>".toList

/-- `UpnpAddToPropertySet`. -/
def UpnpAddToPropertySet (fuel : Nat) (n : NextNode) (propSet : Option Document) (arg : Argument) :
    Except Crash (Int × Option Document) :=
  if arg.1 = none ∨ arg.2 = none then return (UPNP_E_INVALID_PARAM, propSet)
  else do
    let propSet ←
      match propSet with
      | none => UpnpParse_Buffer fuel n BlankDoc
      | some propSet => pure (some propSet)
    let propSet ← addArgument propertyNode propSet arg
    return (UPNP_E_SUCCESS, propSet)

/-- `UpnpCreatePropertySet`. -/
def UpnpCreatePropertySet (fuel : Nat) (n : NextNode) (numArg : Int) (arg : Option CString)
    (argList : List (Option CString)) : Except Crash (Option Document) := do
  let propSet ← UpnpParse_Buffer fuel n BlankDoc
  if numArg < 1 then return none else argumentLoop propertyNode numArg.toNat arg argList propSet

/-! ## The loops -/

variable {make : CString → CString → Content} {doc : Option Document} {fuel : Nat} {n : NextNode}

/-- An argument that is not NULL. -/
def given (a : CString × CString) : Argument := (some a.1, some a.2)

/-- The arguments of a call behind the first name; `rest` is what is behind them. -/
def argListOf (args : List (CString × CString)) (rest : List (Option CString)) :
    List (Option CString) :=
  (args.flatMap fun a ↦ [some a.1, some a.2]).tail ++ rest

/-- The loop adds one argument after the other. -/
theorem argumentLoop_eq (args : List (CString × CString)) (rest : List (Option CString))
    (doc : Option Document) : argumentLoop make args.length (args.head?.map Prod.fst)
      (argListOf args rest) doc = args.foldlM (fun doc a ↦ addArgument make doc (given a)) doc := by
  induction args generalizing doc with
  | nil => rfl
  | cons a args ih =>
    rw [List.foldlM_cons]
    change (addArgument make doc (given a) >>= _) = _
    refine congrArg (addArgument make doc (given a) >>= ·) (funext fun doc' ↦ ?_)
    rw [← ih doc']
    cases args with
    | nil => rfl
    | cons b args => rfl

/-- One call of an incremental builder: a document that is NULL is built first. -/
def addTo (make : CString → CString → Content) (blank : Except Crash (Option Document))
    (doc : Option Document) (a : CString × CString) : Except Crash (Option Document) := do
  let doc ← doc.elim blank fun doc ↦ pure (some doc)
  addArgument make doc (given a)

/-- An argument that is added leaves a document. -/
theorem addArgument_some {a : CString × CString} {doc' : Option Document}
    (h : addArgument make doc (given a) = .ok doc') : ∃ doc'', doc' = some doc'' := by
  change some <$> appendToFirst doc (make a.1 a.2) = .ok doc' at h
  cases happend : appendToFirst doc (make a.1 a.2) with
  | error crash =>
    rw [happend] at h
    cases h
  | ok doc'' =>
    rw [happend] at h
    cases h
    exact ⟨doc'', rfl⟩

/-- Calls on a document add one argument after the other. -/
theorem foldlM_addTo_some (blank : Except Crash (Option Document)) (args : List (CString × CString))
    (doc : Document) : args.foldlM (addTo make blank) (some doc) =
      args.foldlM (fun doc a ↦ addArgument make doc (given a)) (some doc) := by
  induction args generalizing doc with
  | nil => rfl
  | cons a args ih =>
    rw [List.foldlM_cons, List.foldlM_cons]
    change (addArgument make (some doc) (given a) >>= _) = _
    cases hadd : addArgument make (some doc) (given a) with
    | error crash => rfl
    | ok doc' =>
      obtain ⟨doc'', rfl⟩ := addArgument_some hadd
      exact ih doc''

/-- Calls from NULL on build the document once. -/
theorem foldlM_addTo (blank : Except Crash (Option Document)) {args : List (CString × CString)}
    (hne : args ≠ []) : args.foldlM (addTo make blank) none =
      blank >>= fun doc ↦ args.foldlM (fun doc a ↦ addArgument make doc (given a)) doc := by
  obtain ⟨a, args, rfl⟩ := List.exists_cons_of_ne_nil hne
  cases blank with
  | error crash => rfl
  | ok doc =>
    change (addArgument make doc (given a) >>= fun doc' ↦ args.foldlM (addTo make (.ok doc)) doc') =
      addArgument make doc (given a) >>= fun doc' ↦
        args.foldlM (fun doc a ↦ addArgument make doc (given a)) doc'
    cases hadd : addArgument make doc (given a) with
    | error crash => rfl
    | ok doc' =>
      obtain ⟨doc'', rfl⟩ := addArgument_some hadd
      exact foldlM_addTo_some (.ok doc) args doc''

/-- The arguments come behind the children of the first element, in their order. -/
theorem foldlM_addArgument (args : List (CString × CString)) (nodeName : CString)
    (attributes : List (CString × CString)) (children rest : List Content) :
    args.foldlM (fun doc a ↦ addArgument make doc (given a))
      (some (.element nodeName attributes children :: rest)) =
      .ok (some (.element nodeName attributes (children ++ args.map fun a ↦ make a.1 a.2) ::
        rest)) := by
  induction args generalizing children with
  | nil =>
    rw [List.map_nil, List.append_nil]
    rfl
  | cons a args ih =>
    rw [List.map_cons, List.append_cons]
    exact ih (children ++ [make a.1 a.2])

/-! ## The builders -/

/-- `UpnpAddToAction` for one argument after the other, from NULL on. -/
def addAllToAction (fuel : Nat) (n : NextNode) (actionName servType : CString)
    (args : List (CString × CString)) : Except Crash (Option Document) :=
  args.foldlM (fun actionDoc a ↦ Prod.snd <$>
    UpnpAddToAction fuel n actionDoc (some actionName) (some servType) (given a)) none

/-- `UpnpAddToPropertySet` for one argument after the other, from NULL on. -/
def addAllToPropertySet (fuel : Nat) (n : NextNode) (args : List (CString × CString)) :
    Except Crash (Option Document) :=
  args.foldlM (fun propSet a ↦ Prod.snd <$> UpnpAddToPropertySet fuel n propSet (given a)) none

/-- The code that is returned beside the document is always the same. -/
theorem snd_addArgument (make : CString → CString → Content) (doc : Option Document)
    (a : CString × CString) : Prod.snd <$> (addArgument make doc (given a) >>= fun doc ↦
      pure (UPNP_E_SUCCESS, doc)) = addArgument make doc (given a) := by
  cases addArgument make doc (given a) with
  | error crash => rfl
  | ok doc' => rfl

theorem UpnpAddToAction_eq (actionName servType : CString) (doc : Option Document)
    (a : CString × CString) : Prod.snd <$>
      UpnpAddToAction fuel n doc (some actionName) (some servType) (given a) =
      addTo argumentNode (newAction fuel n actionName servType) doc a := by
  cases doc with
  | some doc => exact snd_addArgument argumentNode (some doc) a
  | none =>
    rw [UpnpAddToAction, addTo, Option.elim_none]
    cases newAction fuel n actionName servType with
    | error crash => rfl
    | ok doc => exact snd_addArgument argumentNode doc a

theorem UpnpAddToPropertySet_eq (doc : Option Document) (a : CString × CString) :
    Prod.snd <$> UpnpAddToPropertySet fuel n doc (given a) =
      addTo propertyNode (UpnpParse_Buffer fuel n BlankDoc) doc a := by
  have hgiven : ¬((given a).1 = none ∨ (given a).2 = none) := by
    rintro (h | h)
    · cases h
    · cases h
  rw [UpnpAddToPropertySet, if_neg hgiven]
  cases doc with
  | some doc => exact snd_addArgument propertyNode (some doc) a
  | none =>
    rw [addTo, Option.elim_none]
    cases UpnpParse_Buffer fuel n BlankDoc with
    | error crash => rfl
    | ok doc => exact snd_addArgument propertyNode doc a

/-! ## The documents without arguments -/

/-- An element with an attribute, and nothing in it. -/
def emptyElement (root key text : CString) : CString :=
  '<' :: (root ++ ' ' :: (key ++ '=' :: '"' :: (text ++ '"' :: '>' :: '<' :: '/' :: (root ++ ['>']))))

/-- An element without content is read as it is meant. -/
theorem readDocument_emptyElement {root key text value : CString} (hroot : IsName root)
    (hkey : IsName key) (hquote : '"' ∉ text) (hvalue : Unescapes text value) (hne : text ≠ [])
    (n : NextNode) (fuel : Nat) : readDocument (fuel + 6) n (emptyElement root key text) =
      .ok [.element root [(key, value)] []] := by
  generalize hwhole : emptyElement root key text = whole
  have hwhole' : whole ≠ [] := hwhole ▸ List.cons_ne_nil _ _
  let o : OpenNode := ⟨"#document".toList, [], []⟩
  let s₀ : Parser := ⟨whole, whole, none, false, false, true, false, [], []⟩
  have hnew : Parser.new whole = .ok s₀ := by
    rw [Parser.new, if_neg hwhole']
    rfl
  -- the element, its attribute, and its end
  have helement := @Parser.getNextNode_startTag_attributes s₀ [] root
    ('"' :: (text ++ '"' :: '>' :: '<' :: '/' :: (root ++ ['>']))) rfl (fun c hc ↦ by cases hc) hroot
    key hkey hwhole.symm (List.suffix_refl whole) n
  obtain ⟨s₁, hs₁⟩ : ∃ s₁ : Parser, s₁ = { s₀ with
      currPtr := ' ' :: (key ++ '=' :: '"' :: (text ++ '"' :: '>' :: '<' :: '/' :: (root ++ ['>'])))
      tagVal := false, attrFound := true, atLeastOneAttrFound := false
      tokBuf := key, lastElem := root } := ⟨_, rfl⟩
  rw [← hs₁] at helement
  have hattribute := @Parser.nodePass_attribute s₁ [' '] key text value
    ('>' :: '<' :: '/' :: (root ++ ['>'])) .reset [] [] (by rw [hs₁]) (by rw [hs₁]) (by rw [hs₁])
    (forall_mem_of_all (by decide)) hkey (fun c hc ↦ by cases hc) (fun c hc ↦ by cases hc) hquote
    hvalue hne (hvalue.ne_nil hne) (by rw [hs₁]; rfl) (by decide)
  obtain ⟨s₂, hs₂⟩ : ∃ s₂ : Parser, s₂ = { s₁ with
      currPtr := '>' :: '<' :: '/' :: (root ++ ['>']), tokBuf := ['"']
      atLeastOneAttrFound := true } := ⟨_, rfl⟩
  rw [← hs₂] at hattribute
  have hgt := @Parser.getNextNode_gt_attributes s₂ ('<' :: '/' :: (root ++ ['>']))
    (by rw [hs₂, hs₁]) (by rw [hs₂]) (by rw [hs₂]) .reset (fuel + 2)
  obtain ⟨s₃, hs₃⟩ : ∃ s₃ : Parser, s₃ = { s₂ with
      currPtr := '<' :: '/' :: (root ++ ['>']), savePtr := some ('>' :: '<' :: '/' :: (root ++ ['>']))
      tagVal := true, attrFound := false, atLeastOneAttrFound := false, tokBuf := ">".toList } :=
    ⟨_, rfl⟩
  rw [← hs₃] at hgt
  have hclose := @Parser.getNextNode_endTag s₃ [] root [] (by rw [hs₃, hs₂, hs₁]) (by rw [hs₃])
    (fun c hc ↦ by cases hc) hroot (by rw [hs₃]; rfl) .reset fuel
  have hcurr : s₁.currPtr ≠ [] := by
    rw [hs₁]
    exact List.cons_ne_nil _ _
  have hadd : Current.add (⟨root, [(key, value)], []⟩, [o]) ⟨.ELEMENT_NODE, some root, none, true⟩ =
      .ok (o.appendChild (.element root [(key, value)] []), []) := if_pos rfl
  have h₁ := @readLoop_step s₀ s₁ n _ (o, []) _ _ (helement (fuel + 3)) rfl
    (fun h : NodeType.ELEMENT_NODE = .INVALID_NODE ↦ by cases h)
  have h₂ := @readLoop_step s₁ s₂ .reset _ (⟨root, [], []⟩, [o]) (⟨root, [(key, value)], []⟩, [o])
    (fuel + 4) (Parser.getNextNode_return hcurr hattribute) rfl
    (fun h : NodeType.ATTRIBUTE_NODE = .INVALID_NODE ↦ by cases h)
  have h₃ := @readLoop_step _ _ .reset _ (⟨root, [(key, value)], []⟩, [o]) _ (fuel + 3)
    (hgt.trans hclose) hadd (fun h : NodeType.ELEMENT_NODE = .INVALID_NODE ↦ by cases h)
  rw [readDocument, hnew]
  exact h₁.trans (h₂.trans (h₃.trans (readLoop_end (Parser.getNextNode_nil rfl .reset (fuel + 2)))))

theorem UpnpParse_Buffer_emptyElement {root key text value : CString} (hroot : IsName root)
    (hkey : IsName key) (hquote : '"' ∉ text) (hvalue : Unescapes text value) (hne : text ≠ [])
    (n : NextNode) (fuel : Nat) : UpnpParse_Buffer (fuel + 6) n (emptyElement root key text) =
      .ok (some [.element root [(key, value)] []]) := by
  have hbuff : emptyElement root key text ≠ [] := List.cons_ne_nil _ _
  rw [UpnpParse_Buffer, if_neg hbuff, readDocument_emptyElement hroot hkey hquote hvalue hne n fuel]
  rfl

/-- The name of an action, and the type of its service. -/
structure Action where
  name : CString
  servType : CString
  value : CString
  isName : IsName name
  quote_not_mem : '"' ∉ servType
  unescapes : Unescapes servType value
  ne_nil : servType ≠ []

namespace Action

/-- `u:` and the name. -/
def root (a : Action) : CString := 'u' :: ':' :: a.name

def xmlns : CString := "xmlns:u".toList

/-- The document that is meant, with the arguments. -/
def document (a : Action) (args : List (CString × CString)) : Document :=
  [.element a.root [(xmlns, a.value)] (args.map fun arg ↦ argumentNode arg.1 arg.2)]

theorem isName_root (a : Action) : IsName a.root := by
  obtain ⟨c, cs, hc, hcs, hname⟩ := a.isName
  refine ⟨'u'.toNat, ':'.toNat :: c :: cs, by decide +kernel, ?_, ?_⟩
  · intro d hd
    rcases List.mem_cons.mp hd with rfl | hd
    · decide +kernel
    rcases List.mem_cons.mp hd with rfl | hd
    · exact isnamech_true hc
    · exact hcs d hd
  · rw [root, hname]
    rfl

theorem isName_xmlns : IsName xmlns :=
  ⟨'x'.toNat, "mlns:u".toList.map Char.toNat, by decide +kernel, by decide +kernel,
    by decide +kernel⟩

theorem actionText_eq (a : Action) :
    actionText a.name a.servType = emptyElement a.root xmlns a.servType := by
  have hopen : "<u:".toList = ['<', 'u', ':'] := by decide
  have hname : " xmlns:u=\"".toList = ' ' :: (xmlns ++ ['=', '"']) := by decide
  have hclose : "\"></u:".toList = ['"', '>', '<', '/', 'u', ':'] := by decide
  have hend : ">".toList = ['>'] := by decide
  show "<u:".toList ++ a.name ++ " xmlns:u=\"".toList ++ a.servType ++ "\"></u:".toList ++ a.name ++
    ">".toList = emptyElement ('u' :: ':' :: a.name) xmlns a.servType
  simp only [emptyElement, hopen, hname, hclose, hend, List.append_assoc, List.cons_append,
    List.nil_append]

/-- The document without arguments. -/
theorem newAction_eq (a : Action) (hfit : (actionText a.name a.servType).length < HEADER_LENGTH)
    (n : NextNode) (fuel : Nat) :
    newAction (fuel + 6) n a.name a.servType = .ok (some (a.document [])) := by
  rw [newAction, if_pos hfit, a.actionText_eq]
  exact UpnpParse_Buffer_emptyElement a.isName_root isName_xmlns a.quote_not_mem a.unescapes a.ne_nil n
    fuel

end Action

/-- The property set that is meant. -/
def propertySet (args : List (CString × CString)) : Document :=
  [.element "e:propertyset".toList [("xmlns:e".toList, Gena.PropertySet.namespaceName)]
    (args.map fun arg ↦ propertyNode arg.1 arg.2)]

/-- `BlankDoc` is read as it is meant. -/
theorem blankDoc_eq (n : NextNode) (fuel : Nat) :
    UpnpParse_Buffer (fuel + 6) n BlankDoc = .ok (some (propertySet [])) := by
  have hblank : BlankDoc =
      emptyElement "e:propertyset".toList "xmlns:e".toList Gena.PropertySet.namespaceName := by
    decide
  rw [hblank]
  exact UpnpParse_Buffer_emptyElement Gena.PropertySet.isName_propertyset
    Gena.PropertySet.isName_xmlns (by decide) Gena.PropertySet.unescapes_namespaceName (by decide) n
    fuel

/-! ## One call or many -/

/-- The nodes that were there stay as they are, in front of the new one. -/
def Adds (node : Content) (doc doc' : Document) : Prop :=
  ∃ nodeName attributes children rest, doc = .element nodeName attributes children :: rest ∧
    doc' = .element nodeName attributes (children ++ [node]) :: rest

theorem addTo_adds {blank : Except Crash (Option Document)} {doc : Document} {arg : CString × CString}
    {doc' : Option Document} (h : addTo make blank (some doc) arg = .ok doc') :
    ∃ doc'', doc' = some doc'' ∧ Adds (make arg.1 arg.2) doc doc'' := by
  match doc, h with
  | .element nodeName attributes children :: rest, h =>
    cases h
    exact ⟨_, rfl, nodeName, attributes, children, rest, rfl, rfl⟩

/-- One call gives the document that many give, and a call leaves the nodes that were there. -/
structure ActionsAgree (a : Action) (args : List (CString × CString)) : Prop where
  same : ∀ fuel n rest, 6 ≤ fuel →
    UpnpMakeAction fuel n (some a.name) (some a.servType) args.length (args.head?.map Prod.fst)
      (argListOf args rest) = addAllToAction fuel n a.name a.servType args
  built : ∀ fuel n, 6 ≤ fuel →
    addAllToAction fuel n a.name a.servType args = .ok (some (a.document args))
  kept : ∀ fuel n doc arg rc doc', UpnpAddToAction fuel n (some doc) (some a.name) (some a.servType)
    (given arg) = .ok (rc, doc') → ∃ doc'', doc' = some doc'' ∧ Adds (argumentNode arg.1 arg.2) doc doc''

structure PropertySetsAgree (args : List (CString × CString)) : Prop where
  same : ∀ fuel n rest, 6 ≤ fuel →
    UpnpCreatePropertySet fuel n args.length (args.head?.map Prod.fst) (argListOf args rest) =
      addAllToPropertySet fuel n args
  built : ∀ fuel n, 6 ≤ fuel → addAllToPropertySet fuel n args =
    .ok (if args = [] then none else some (propertySet args))
  kept : ∀ fuel n doc arg rc doc', UpnpAddToPropertySet fuel n (some doc) (given arg) =
    .ok (rc, doc') → ∃ doc'', doc' = some doc'' ∧ Adds (propertyNode arg.1 arg.2) doc doc''

theorem kept_of_addTo {blank : Except Crash (Option Document)} {doc : Document}
    {arg : CString × CString} {run : Except Crash (Int × Option Document)} {rc : Int}
    {doc' : Option Document} (heq : Prod.snd <$> run = addTo make blank (some doc) arg)
    (h : run = .ok (rc, doc')) : ∃ doc'', doc' = some doc'' ∧ Adds (make arg.1 arg.2) doc doc'' := by
  rw [h] at heq
  exact addTo_adds heq.symm

theorem addAllToAction_eq (actionName servType : CString) (args : List (CString × CString)) :
    addAllToAction fuel n actionName servType args =
      args.foldlM (addTo argumentNode (newAction fuel n actionName servType)) none := by
  rw [addAllToAction]
  congr
  funext doc a
  exact UpnpAddToAction_eq actionName servType doc a

theorem addAllToPropertySet_eq (args : List (CString × CString)) :
    addAllToPropertySet fuel n args =
      args.foldlM (addTo propertyNode (UpnpParse_Buffer fuel n BlankDoc)) none := by
  rw [addAllToPropertySet]
  congr
  funext doc a
  exact UpnpAddToPropertySet_eq doc a

theorem length_pos_int {α : Type} {args : List α} (hne : args ≠ []) : 0 < (args.length : Int) :=
  Int.natCast_pos.mpr (List.length_pos_iff.mpr hne)

theorem actionsAgree {a : Action} (hfit : (actionText a.name a.servType).length < HEADER_LENGTH)
    {args : List (CString × CString)} (hne : args ≠ []) : ActionsAgree a args where
  same fuel n rest _ := by
    rw [addAllToAction_eq, foldlM_addTo _ hne, UpnpMakeAction]
    refine congrArg (newAction fuel n a.name a.servType >>= ·) (funext fun doc ↦ ?_)
    rw [if_pos (length_pos_int hne), Int.toNat_natCast, argumentLoop_eq]
  built fuel n hfuel := by
    obtain ⟨fuel, rfl⟩ := Nat.exists_eq_add_of_le' hfuel
    rw [addAllToAction_eq, foldlM_addTo _ hne, a.newAction_eq hfit]
    exact foldlM_addArgument args _ _ [] []
  kept fuel n doc arg rc doc' h :=
    kept_of_addTo (UpnpAddToAction_eq a.name a.servType (some doc) arg) h

theorem propertySetsAgree (args : List (CString × CString)) : PropertySetsAgree args where
  same fuel n rest hfuel := by
    obtain ⟨fuel, rfl⟩ := Nat.exists_eq_add_of_le' hfuel
    rw [UpnpCreatePropertySet, blankDoc_eq]
    by_cases hne : args = []
    · subst hne
      rfl
    · rw [addAllToPropertySet_eq, foldlM_addTo _ hne, blankDoc_eq]
      change (if (args.length : Int) < 1 then _ else _) = _
      have hlt : ¬ (args.length : Int) < 1 := Int.not_lt.mpr (length_pos_int hne)
      rw [if_neg hlt, Int.toNat_natCast, argumentLoop_eq]
      rfl
  built fuel n hfuel := by
    obtain ⟨fuel, rfl⟩ := Nat.exists_eq_add_of_le' hfuel
    by_cases hne : args = []
    · subst hne
      rfl
    · rw [if_neg hne, addAllToPropertySet_eq, foldlM_addTo _ hne, blankDoc_eq]
      exact foldlM_addArgument args _ _ [] []
  kept fuel n doc arg rc doc' h := kept_of_addTo (UpnpAddToPropertySet_eq (some doc) arg) h

theorem isName_a : IsName ['a'] := isName_singleton (by decide +kernel) (by decide)

theorem quote_not_mem_s : '"' ∉ ['s'] := by decide

theorem unescapes_s : Unescapes ['s'] ['s'] := unescapes_ascii (by decide)

theorem s_ne_nil : ['s'] ≠ [] := List.cons_ne_nil _ _

/-- The action `a` of a service `s`. -/
def actionA : Action where
  name := ['a']
  servType := ['s']
  value := ['s']
  isName := isName_a
  quote_not_mem := quote_not_mem_s
  unescapes := unescapes_s
  ne_nil := s_ne_nil

end Upnp.Api.Builders
