/-
  BoundMarkup.View.Tree
  ─────────────────────
  **FROM A DOCUMENT TO ITS CONTROLS.**

  A tag without a name space is a plain HTML element; others are markup controls
  or code controls.  A binding in text becomes a control that shows it.  The
  attribute `DataContext` switches the data context of its own element and of
  everything inside.  What is wrong with one node is noted on that node.
-/
import BoundMarkup.View.Control
import BoundMarkup.View.Options

namespace BoundMarkup

open Markup (Attribute BindingSource Document Element QName)

/-! ## §1. The types of tags. -/

/-- What a compiled markup control shows to the views that use it. -/
structure ControlSignature where
  baseType : TypeRef
  viewModel : TypeRef
  deriving DecidableEq, Repr

/-- What controls are looked up in. -/
structure ControlScope where
  types : Registry
  options : Options
  /-- The markup controls that compiled, by path. -/
  signature? : String → Option ControlSignature

namespace ControlScope

/-- The metadata of a standard control; without the standard controls nothing
is known. -/
def standard (s : ControlScope) (name : String) : ControlMetadata :=
  (s.types.controlMetadata? (.simple name)).getD .untyped

/-- A plain element. -/
def html (s : ControlScope) : ControlKind × ControlMetadata :=
  (.html, s.standard Controls.htmlGeneric)

/-- The control that the view at a path defines. -/
def markupControl (s : ControlScope) (path : String) :
    Except NodeFault (ControlKind × ControlMetadata) :=
  match s.signature? path with
  | none => .error (.controlFailed path)
  | some signature =>
      match s.types.controlMetadata? signature.baseType with
      | none => .error (.controlBaseNotControl signature.baseType path)
      | some metadata => .ok (.markup path signature.viewModel, metadata)

/-- The code control of a name. -/
def codeControl? (s : ControlScope) (tagSpace name : String) : Option ControlMetadata :=
  (s.options.controlSpace? tagSpace).bind (fun space =>
    (s.types.resolve? name [space]).bind s.types.controlMetadata?)

/-- **What a tag stands for.** -/
def controlType (s : ControlScope) (tag : QName) :
    Except NodeFault (ControlKind × ControlMetadata) :=
  match tag.space with
  | none => .ok s.html
  | some tagSpace =>
      match s.options.markupControl? tagSpace tag.name with
      | some control => s.markupControl (ViewPath.normalize control.source)
      | none =>
          match s.codeControl? tagSpace tag.name with
          | some metadata => .ok (.code, metadata)
          | none => .error (.unknownControl tag.text)

end ControlScope

/-! ## §2. Properties. -/

/-- The attribute switches the data context. -/
def isContextAttribute (a : Attribute) : Bool :=
  a.name.space.isNone && Text.sameIgnoringCase a.name.name Controls.dataContextProperty

/-- The value of an attribute, bound against a data context. -/
def attributeValue (s : ControlScope) (context : DataContext) (a : Attribute) : PropertyValue :=
  match a.value with
  | .bare => .hardCoded ""
  | .text text => .hardCoded text
  | .binding source =>
      match Binding.bindSource ⟨s.types, context⟩ source with
      | .ok b => .bound b
      | .error error => .failed error

/-- The property that an attribute sets. -/
def attributeProperty (s : ControlScope) (context : DataContext) (capability : Option Capability)
    (a : Attribute) : ControlProperty :=
  ⟨a.name.text, attributeValue s context a, a.span, capability⟩

/-- How an attribute is taken. -/
inductive AttributeRole where
  /-- There was an attribute of the same name before. -/
  | duplicate
  /-- Left to the data context of the element. -/
  | context
  /-- The control has no such property. -/
  | unknown
  | property (capability : Option Capability)
  deriving DecidableEq, Repr

namespace AttributeRole

/-- The role of an attribute after attributes of the given names.  Only plain
elements may have attributes that are no capability properties. -/
def of (kind : ControlKind) (metadata : ControlMetadata) (seen : List String) (a : Attribute) :
    AttributeRole :=
  if a.name.text ∈ seen then .duplicate
  else if isContextAttribute a then .context
  else
    let capability := if a.name.space.isNone then metadata.property? a.name.name else none
    if capability.isNone ∧ kind ≠ .html then .unknown else .property capability

/-- The attributes with their roles. -/
def assign (kind : ControlKind) (metadata : ControlMetadata) :
    List String → List Attribute → List (Attribute × AttributeRole)
  | _, [] => []
  | seen, a :: as =>
      (a, of kind metadata seen a) :: assign kind metadata (a.name.text :: seen) as

/-- What is wrong with an attribute in its role. -/
def error? (tag : String) : Attribute × AttributeRole → Option NodeError
  | (a, .duplicate) => some ⟨.duplicateProperty a.name.text tag, a.span⟩
  | (a, .unknown) => some ⟨.unknownProperty tag a.name.text, a.span⟩
  | _ => none

/-- The property that an attribute sets in its role. -/
def property? (s : ControlScope) (context : DataContext) :
    Attribute × AttributeRole → Option ControlProperty
  | (a, .property capability) => some (attributeProperty s context capability a)
  | _ => none

end AttributeRole

/-! ## §3. Elements. -/

/-- The property that sets the data context of an element, bound outside of it. -/
def contextProperty? (s : ControlScope) (outer : DataContext) (metadata : ControlMetadata)
    (e : Element) : Option ControlProperty :=
  (e.attribute? Controls.dataContextProperty).map
    (attributeProperty s outer (metadata.property? Controls.dataContextProperty))

/-- The data context inside an element. -/
def innerContext (outer : DataContext) (contextProperty : Option ControlProperty) : DataContext :=
  match contextProperty.bind ControlProperty.binding? with
  | some b => outer.push b.term.type
  | none => outer

/-- The control of an element, without regard to what is inside. -/
def elementControl (s : ControlScope) (outer : DataContext) (e : Element) : Control :=
  let found := s.controlType e.name
  let (kind, metadata) := match found with
    | .ok known => known
    | .error _ => s.html
  let own : List NodeError := e.errors.map (fun message => ⟨.malformed message, e.span⟩)
  let unknown : List NodeError := match found with
    | .ok _ => []
    | .error fault => [⟨fault, e.span⟩]
  let contextProperty := contextProperty? s outer metadata e
  let context := innerContext outer contextProperty
  let roles := AttributeRole.assign kind metadata [] e.attributes
  { kind := kind
    tag := e.name.text
    metadata := metadata
    properties := contextProperty.toList ++ roles.filterMap (AttributeRole.property? s context)
    context := context
    span := e.span
    errors := own ++ unknown ++ roles.filterMap (AttributeRole.error? e.name.text)
    contextMark := none }

/-- The control that shows a binding in text. -/
def literalControl (s : ControlScope) (context : DataContext) (source : BindingSource) : Control :=
  let metadata := s.standard Controls.literal
  let text : Attribute := ⟨⟨none, "Text"⟩, .binding source, source.span⟩
  { kind := .code
    tag := ""
    metadata := metadata
    properties := [attributeProperty s context (metadata.property? "Text") text]
    context := context
    span := source.span
    errors := []
    contextMark := none }

/-- The end tags among the nodes that close nothing. -/
def strayErrors (nodes : List Markup.Node) : List NodeError :=
  nodes.filterMap (fun n =>
    match n with
    | .stray tag => some ⟨.malformed tag.strayMessage, tag.span⟩
    | _ => none)

/-- Content where the control allows none. -/
def contentErrors (c : Control) (children : List ControlNode) : List NodeError :=
  if !c.metadata.allowsContent && children.any ControlNode.isContent then
    [⟨.contentNotAllowed c.tag, c.span⟩]
  else []

/-- The control with what its content adds to its errors. -/
def withContent (c : Control) (nodes : List Markup.Node) (children : List ControlNode) : Control :=
  { c with errors := c.errors ++ strayErrors nodes ++ contentErrors c children }

mutual

/-- The control or text that a node stands for, in a data context. -/
def resolveNode (s : ControlScope) (context : DataContext) : Markup.Node → Option ControlNode
  | .element e children =>
      let c := elementControl s context e
      let inner := resolveNodes s c.context children
      some (.control (withContent c children inner) inner)
  | .text text span => some (.text text span)
  | .binding source => some (.control (literalControl s context source) [])
  | .stray _ => none

/-- The controls and texts that nodes stand for. -/
def resolveNodes (s : ControlScope) (context : DataContext) :
    List Markup.Node → List ControlNode
  | [] => []
  | n :: ns => (resolveNode s context n).toList ++ resolveNodes s context ns

end

/-! ## §4. Views. -/

/-- What does not belong at the top level of a view with a master page. -/
def topLevelErrors (nodes : List ControlNode) : List NodeError :=
  nodes.filterMap (fun n =>
    match n with
    | .control c _ =>
        if c.hasType Controls.content then none else some ⟨.strayControl c.tag, c.span⟩
    | .text text span => if Text.allBlank text then none else some ⟨.strayText, span⟩)

/-- The type of the root of a view. -/
def rootType (kind : ViewKind) (directives : Directives) : TypeRef :=
  directives.baseType.getD
    (.simple (if kind = .markupControl then Controls.markupControl else Controls.view))

/-- The root of a view. -/
def rootControl (metadata : ControlMetadata) (context : DataContext) (errors : List NodeError) :
    Control :=
  { kind := .root
    tag := ""
    metadata := metadata
    properties := []
    context := context
    span := .start
    errors := errors
    contextMark := none }

namespace ControlTree

/-- **The controls of a document.** -/
def ofDocument (s : ControlScope) (path : String) (kind : ViewKind) (d : Document) :
    Except ViewError ControlTree := do
  let directives ← Directives.ofDocument s.types kind d
  let type := rootType kind directives
  match s.types.controlMetadata? type with
  | none => .error (.baseNotControl type ((d.directive? "baseType").map (fun x => x.span)))
  | some metadata =>
      let context := DataContext.ofRoot directives.viewModel directives.imports
      let children := resolveNodes s context d.nodes
      let misplaced := if directives.master.isSome then topLevelErrors children else []
      .ok ⟨path, kind, directives,
        rootControl metadata context (strayErrors d.nodes ++ misplaced), children⟩

end ControlTree

/-- The markup controls that a document uses: path and first use of each. -/
def markupReferences (o : Options) (d : Document) : List (String × Span) :=
  (d.elements.filterMap (fun e =>
    (e.name.space.bind (fun tagSpace => o.markupControl? tagSpace e.name.name)).map (fun c =>
      (ViewPath.normalize c.source, e.span)))).foldl
    (fun seen use => if seen.any (fun s => s.1 == use.1) then seen else seen ++ [use]) []

end BoundMarkup
