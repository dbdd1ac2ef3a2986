import ClassDiagram.Diagram
import ClassDiagram.Json.Writer
set_option autoImplicit false

namespace ClassDiagram

def Style.toJson (style : Style) : Json :=
  .object
    [("bold", .bool style.bold), ("underline", .bool style.underline),
      ("italic", .bool style.italic), ("dashed", .bool style.dashed),
      ("empty", .bool style.empty), ("center", .bool style.center),
      ("fill", .ofOption style.fill), ("stroke", .ofOption style.stroke),
      ("visual", .text style.visual.name), ("direction", .text style.direction.name)]

def StyleTable.toJson (table : StyleTable) : Json :=
  .object (table.entries.map fun entry => (entry.1, entry.2.toJson))

/-- All settings but the styles; the acyclicer is left out when there is none. -/
def Settings.scalarMembers (settings : Settings) : List (String × Json) :=
  [("arrowSize", .double settings.arrowSize), ("bendSize", .double settings.bendSize),
    ("direction", .text settings.direction.name), ("gutter", .double settings.gutter),
    ("edgeMargin", .double settings.edgeMargin), ("gravity", .double settings.gravity),
    ("edges", .text settings.edges.name), ("fill", .texts settings.fill),
    ("background", .text settings.background), ("fillArrows", .bool settings.fillArrows),
    ("font", .text settings.font), ("fontSize", .double settings.fontSize),
    ("leading", .double settings.leading), ("lineWidth", .double settings.lineWidth),
    ("padding", .double settings.padding), ("spacing", .double settings.spacing),
    ("stroke", .text settings.stroke), ("title", .text settings.title),
    ("zoom", .double settings.zoom)] ++
  (settings.acyclicer.toList.map fun acyclicer => ("acyclicer", .text acyclicer.name)) ++
  [("ranker", .text settings.ranker.name)]

def Settings.toJson (settings : Settings) : Json :=
  .object (settings.scalarMembers ++ [("styles", settings.styles.toJson)])

namespace Tree

def labelJson (label : String) : Json := .object [("text", .text label)]

def Relation.toJson (relation : Relation) : Json :=
  .object
    [("id", .whole relation.id), ("assoc", .text relation.arrow),
      ("start", .text relation.source), ("end", .text relation.target),
      ("startLabel", labelJson relation.sourceLabel), ("endLabel", labelJson relation.targetLabel)]

mutual

def Compartment.toJson : Compartment → Json
  | ⟨lines, classifiers, relations⟩ =>
      .object
        [("lines", .texts lines), ("classifiers", .list (classifiersJson classifiers)),
          ("relations", .list (relations.map Relation.toJson))]

def classifiersJson : List Classifier → List Json
  | [] => []
  | classifier :: rest => classifier.toJson :: classifiersJson rest

def Classifier.toJson : Classifier → Json
  | ⟨kind, name, compartments⟩ =>
      .object
        [("type", .text kind), ("name", .text name),
          ("compartments", .list (compartmentsJson compartments))]

def compartmentsJson : List Compartment → List Json
  | [] => []
  | compartment :: rest => compartment.toJson :: compartmentsJson rest

end

end Tree

def Diagram.toJson (diagram : Diagram) : Json :=
  .object [("root", diagram.root.toJson), ("config", diagram.settings.toJson)]

end ClassDiagram
