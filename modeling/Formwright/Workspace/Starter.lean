import Formwright.Text.Substitution
import Formwright.Workspace.Failure

/-!
A new project: a directory with a manifest, a sample form with its script, and an ignore file.
-/

namespace Formwright.Workspace

def joinLines (lines : List String) : String := String.join (lines.map (· ++ "\n"))

def starterManifest (name : String) : String :=
  joinLines ["[project]", "name = \"" ++ name ++ "\"", "", "[input]",
    "# Directory holding legacy form markup (.xfdl) and scripts (.xjs)", "dir = \"legacy\"", "",
    "[output]", "dir = \"generated\"", "components_dir = \"src/components\"",
    "# \"tsx\" or \"jsx\"", "format = \"tsx\"", "",
    "# Project-specific mapping rules take precedence over the built-in table.", "#",
    "# [[mappings]]", "# kind = \"MaskEdit\"", "# component = \"MaskedInput\"",
    "# properties = \x7b value = \"value\", mask = \"mask\", enabled = \"disabled\" \x7d",
    "# defaults = \x7b mask = \"####-##-##\" \x7d", "# events = \x7b onchanged = \"onChange\" \x7d"]

def escapeInQuotes (c : Char) : List Char :=
  match c with
  | '&' => "&amp;".toList
  | '"' => "&quot;".toList
  | '<' => "&lt;".toList
  | c => [c]

def attributeText (text : String) : String :=
  String.ofList (text.toList.flatMap escapeInQuotes)

def starterForm (name : String) : String :=
  joinLines ["<?xml version=\"1.0\" encoding=\"utf-8\"?>", "<FDL version=\"2.0\">",
    "  <Form id=\"frmMain\" name=\"MainForm\" width=\"1024\" height=\"768\" title=\"" ++
      attributeText name ++ "\">",
    "    <Layouts>", "      <Layout>",
    "        <Static id=\"stcTitle\" text=\"Welcome\" text-align=\"center\"/>",
    "        <Edit id=\"edtName\" placeholder=\"Your name\"/>",
    "        <Button id=\"btnGreet\" text=\"Greet\" onclick=\"btnGreet_onclick\"/>",
    "      </Layout>", "    </Layouts>", "  </Form>", "</FDL>"]

def starterScript : String :=
  joinLines ["this.btnGreet_onclick = function(obj:nexacro.Button, e:nexacro.ClickEventInfo)",
    "\x7b", "    alert(\"Hello, \" + this.edtName.value);", "\x7d;"]

def starterIgnoreFile : String := joinLines ["/generated/", "*.bak"]

def starterFiles (name : String) : List (String × String) :=
  [(manifestName, starterManifest name), ("legacy/main.xfdl", starterForm name),
    ("legacy/main.xjs", starterScript), (".gitignore", starterIgnoreFile)]

variable {m : Type → Type} [Monad m] [Host m]

def writeStarter (root : Path) : List (String × String) → Task m Unit
  | [] => return ()
  | (file, text) :: later => do
    if let .error cause ← Host.write (root.join ⟨file⟩) text.toUTF8 then
      throw (.notWritten file cause)
    writeStarter root later

def create (name : String) : Task m Unit := do
  let root : Path := ⟨name⟩
  if (← Host.kind root).isSome then throw (.nameTaken name)
  if let .error cause ← Host.makeDirectories (root.join ⟨"legacy"⟩) then
    throw (.projectNotMade cause)
  writeStarter root (starterFiles name)

end Formwright.Workspace
