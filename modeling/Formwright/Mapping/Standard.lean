import Formwright.Mapping.Rule

/-!
The rules that are always there, one for every known kind.
-/

namespace Formwright.Mapping

def standardRules : List Rule :=
  [
    { kind := .form
      component := "div"
      properties := [("width", .ofPath "width"), ("height", .ofPath "height"),
         ("title", .ofPath "title"), ("background-color", .ofPath "style.backgroundColor")]
      defaults := [("style", .object [("width", .text "100%"), ("height", .text "100%")])]
      events := [] },
    { kind := .container
      component := "div"
      properties := [("width", .ofPath "width"), ("height", .ofPath "height"),
         ("background-color", .ofPath "style.backgroundColor"),
         ("visible", .ofPath "style.display")]
      defaults := []
      events := [] },
    { kind := .grid
      component := "DataGrid"
      properties := [("id", .ofPath "id"), ("width", .ofPath "width"), ("height", .ofPath "height"),
         ("row-count", .ofPath "rowCount"), ("column-count", .ofPath "columnCount")]
      defaults := [("data", .array [])]
      events := [("oncellclick", "onCellClick"), ("onrowchanged", "onRowChanged"),
         ("oncellchanged", "onCellChanged")] },
    { kind := .edit
      component := "input"
      properties := [("id", .ofPath "id"), ("width", .ofPath "width"), ("height", .ofPath "height"),
         ("value", .ofPath "value"), ("text", .ofPath "value"), ("readonly", .ofPath "readOnly"),
         ("enabled", .ofPath "disabled"), ("placeholder", .ofPath "placeholder"),
         ("type", .ofPath "type")]
      defaults := [("type", .text "text")]
      events := [("onchanged", "onChange"), ("onfocus", "onFocus"), ("onblur", "onBlur")] },
    { kind := .button
      component := "button"
      properties := [("id", .ofPath "id"), ("width", .ofPath "width"), ("height", .ofPath "height"),
         ("text", .ofPath "children"), ("enabled", .ofPath "disabled"),
         ("visible", .ofPath "style.display")]
      defaults := [("type", .text "button")]
      events := [("onclick", "onClick"), ("onfocus", "onFocus"), ("onblur", "onBlur")] },
    { kind := .combo
      component := "select"
      properties := [("id", .ofPath "id"), ("width", .ofPath "width"), ("height", .ofPath "height"),
         ("value", .ofPath "value"), ("enabled", .ofPath "disabled")]
      defaults := []
      events := [("onchanged", "onChange"), ("onfocus", "onFocus"), ("onblur", "onBlur")] },
    { kind := .checkBox
      component := "input"
      properties := [("id", .ofPath "id"), ("text", .ofPath "children"),
         ("checked", .ofPath "checked"), ("enabled", .ofPath "disabled")]
      defaults := [("type", .text "checkbox")]
      events := [("onchanged", "onChange"), ("onclick", "onClick")] },
    { kind := .radio
      component := "input"
      properties := [("id", .ofPath "id"), ("text", .ofPath "children"),
         ("checked", .ofPath "checked"), ("value", .ofPath "value"),
         ("enabled", .ofPath "disabled")]
      defaults := [("type", .text "radio")]
      events := [("onchanged", "onChange"), ("onclick", "onClick")] },
    { kind := .static
      component := "label"
      properties := [("id", .ofPath "id"), ("text", .ofPath "children"), ("width", .ofPath "width"),
         ("height", .ofPath "height"), ("text-align", .ofPath "style.textAlign")]
      defaults := []
      events := [] },
    { kind := .tab
      component := "Tabs"
      properties := [("id", .ofPath "id"), ("width", .ofPath "width"), ("height", .ofPath "height"),
         ("tab-count", .ofPath "tabCount")]
      defaults := []
      events := [("ontabchanged", "onTabChanged")] },
    { kind := .div
      component := "div"
      properties := [("id", .ofPath "id"), ("width", .ofPath "width"), ("height", .ofPath "height"),
         ("background-color", .ofPath "style.backgroundColor"),
         ("visible", .ofPath "style.display")]
      defaults := []
      events := [] },
    { kind := .image
      component := "img"
      properties := [("id", .ofPath "id"), ("width", .ofPath "width"), ("height", .ofPath "height"),
         ("src", .ofPath "src"), ("alt", .ofPath "alt")]
      defaults := []
      events := [] },
    { kind := .treeView
      component := "TreeView"
      properties := [("id", .ofPath "id"), ("width", .ofPath "width"), ("height", .ofPath "height"),
         ("data", .ofPath "data")]
      defaults := []
      events := [("onitemclick", "onItemClick"), ("onitemchanged", "onItemChanged")] },
    { kind := .listBox
      component := "select"
      properties := [("id", .ofPath "id"), ("width", .ofPath "width"), ("height", .ofPath "height"),
         ("multiple", .ofPath "multiple"), ("value", .ofPath "value")]
      defaults := [("multiple", .flag false)]
      events := [("onchanged", "onChange"), ("onitemclick", "onClick")] },
    { kind := .calendar
      component := "input"
      properties := [("id", .ofPath "id"), ("width", .ofPath "width"), ("height", .ofPath "height"),
         ("value", .ofPath "value"), ("type", .ofPath "type")]
      defaults := [("type", .text "date")]
      events := [("onchanged", "onChange")] }
  ]

namespace Table

def standard : Table := ⟨standardRules⟩

def extending (custom : List Rule) : Table := ⟨custom ++ standardRules⟩

end Table
end Formwright.Mapping
