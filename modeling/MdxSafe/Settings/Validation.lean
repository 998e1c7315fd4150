-- SUMMARY: Settings read from sections of a configuration, and written back as sections.
import MdxSafe.Settings.Basic
import MdxSafe.Validation.Basic

/-!
# Settings from data

Each kind of settings is read from the fields of an object; what is left out has its default.
-/

namespace MdxSafe

/-- A style of fences. -/
def FenceStyle.ofValue (v : Value) : Checked FenceStyle :=
  match v with
  | .text ['`'] => .ok .backticks
  | .text ['~'] => .ok .tildes
  | v => Checked.fail (.literal ["`", "~"]) v

namespace Layout.Options

/-- Layout conventions from fields. -/
def ofFields (fs : Fields) : Checked Options :=
  Options.mk <$> Checked.optional FenceStyle.ofValue .backticks fs "fence"
    <*> Checked.optional (fun v => Int.toNat <$> Checked.intBetween 1 4 v) 1 fs "list_item_indent"
    <*> Checked.optional Checked.text "***" fs "thematic_break"

/-- Layout conventions from a value. -/
def ofValue (v : Value) : Checked Options := Checked.record "SerializerOptions" ofFields v

/-- The conventions as fields. -/
def toFields (o : Options) : Fields :=
  [("fence".toList, .text [o.fence.mark]), ("list_item_indent".toList, .int o.itemIndent),
   ("thematic_break".toList, .text o.thematicBreak)]

end Layout.Options

/-- A list of texts as a value. -/
def Value.texts (ts : List Text) : Value := .list (ts.map .text)

namespace Settings

/-- Settings from fields. -/
def ofFields (fs : Fields) : Checked Settings :=
  Settings.mk <$> Checked.optional Checked.text "docs/" fs "link_prefix"
    <*> Checked.optional (fun v => normalizeNames <$> Checked.list Checked.text v) defaultVoidElements fs
      "void_elements"
    <*> Checked.optional Checked.int 100 fs "excerpt_length"
    <*> Checked.optional Checked.text ".bak" fs "backup_suffix"
    <*> Checked.optional Checked.int 5 fs "warning_preview_limit"
    <*> Checked.optional Layout.Options.ofValue {} fs "serializer"

/-- The settings as fields. -/
def toFields (s : Settings) : Fields :=
  [("link_prefix".toList, .text s.linkRoot), ("void_elements".toList, Value.texts s.voidElements),
   ("excerpt_length".toList, .int s.excerptLength), ("backup_suffix".toList, .text s.backupSuffix),
   ("warning_preview_limit".toList, .int s.previewLimit),
   ("serializer".toList, .object s.layout.toFields)]

end Settings

namespace SourceSettings

/-- Settings from fields. -/
def ofFields (fs : Fields) : Checked SourceSettings :=
  SourceSettings.mk
    <$> Checked.optional (Checked.list Checked.text) ["docs".toList, "blog".toList] fs "roots"
    <*> Checked.optional (fun v => normalizeExtension <$> Checked.text v) ".md" fs "extension"

/-- The settings as fields. -/
def toFields (s : SourceSettings) : Fields :=
  [("roots".toList, Value.texts s.roots), ("extension".toList, .text s.extension)]

end SourceSettings

namespace SiteSettings

/-- Settings from fields. -/
def ofFields (fs : Fields) : Checked SiteSettings :=
  let d : SiteSettings := {}
  let text (default : Text) (key : String) : Checked Text := Checked.optional Checked.text default fs key
  SiteSettings.mk <$> text d.owner "owner" <*> text d.templateRepo "template_repo"
    <*> text d.workflowPath "workflow_path" <*> text d.sidebarsPath "sidebars_path"
    <*> text d.configPath "config_path" <*> text d.docsDir "docs_dir"

/-- The settings as fields. -/
def toFields (s : SiteSettings) : Fields :=
  [("owner".toList, .text s.owner), ("template_repo".toList, .text s.templateRepo),
   ("workflow_path".toList, .text s.workflowPath), ("sidebars_path".toList, .text s.sidebarsPath),
   ("config_path".toList, .text s.configPath), ("docs_dir".toList, .text s.docsDir)]

end SiteSettings
end MdxSafe
