import ClassDiagram.Number.Decimal
import ClassDiagram.Style.Basic
set_option autoImplicit false

namespace ClassDiagram

structure Settings where
  arrowSize : Double
  bendSize : Double
  direction : Direction
  gutter : Double
  edgeMargin : Double
  gravity : Double
  edges : EdgeStyle
  fill : List String
  background : String
  fillArrows : Bool
  font : String
  fontSize : Double
  leading : Double
  lineWidth : Double
  padding : Double
  spacing : Double
  stroke : String
  title : String
  zoom : Double
  acyclicer : Option Acyclicer
  ranker : Ranker
  styles : StyleTable
deriving DecidableEq

namespace Settings

def default : Settings where
  arrowSize := Decimal.toDouble ⟨false, 1, 0⟩
  bendSize := Decimal.toDouble ⟨false, 3, -1⟩
  direction := .topToBottom
  gutter := Decimal.toDouble ⟨false, 5, 0⟩
  edgeMargin := .zero false
  gravity := Decimal.toDouble ⟨false, 1, 0⟩
  edges := .rounded
  fill := ["#eee8d5", "#fdf6e3", "#eee8d5", "#fdf6e3"]
  background := "transparent"
  fillArrows := false
  font := "Helvetica"
  fontSize := Decimal.toDouble ⟨false, 12, 0⟩
  leading := Decimal.toDouble ⟨false, 125, -2⟩
  lineWidth := Decimal.toDouble ⟨false, 3, 0⟩
  padding := Decimal.toDouble ⟨false, 8, 0⟩
  spacing := Decimal.toDouble ⟨false, 40, 0⟩
  stroke := "#33322E"
  title := ""
  zoom := Decimal.toDouble ⟨false, 1, 0⟩
  acyclicer := none
  ranker := .networkSimplex
  styles := .builtin

instance : Inhabited Settings := ⟨default⟩

end Settings
end ClassDiagram
