import SchemaDocs.Document.ExportRecord
import SchemaDocs.Html.Fragment
/-!
# The HTML page

One self-contained page: a navigation bar with a link for every model and field, a section for each
of them, and a script that exports the document as Markdown from a record embedded in the page.
-/

namespace SchemaDocs.Html

open Fragment (markup shown script)

def exportFileName : Text := "prisma_schema_documentation.md"

/-- The page up to its title. -/
def headStart : Text := Text.ofLines [
  "<!DOCTYPE html>",
  "<html>",
  "<head>",
  "    <meta charset=\"utf-8\">"]

/-- The page from its title to the navigation links. -/
def headEnd : Text := Text.ofLines [
  "    <style>",
  "        body \x7b font-family: Arial, sans-serif; display: flex; color: #333; margin: 0 \x7d",
  "        .sidebar \x7b width: 250px; padding: 20px; background-color: #f0f0f0; position: fixed; height: 100vh; overflow-y: auto; \x7d",
  "        .content \x7b margin-left: 270px; padding: 50px; flex-grow: 1; background-color: #fff; \x7d",
  "        .model \x7b margin-bottom: 40px; \x7d",
  "        .model-name \x7b font-size: 24px; font-weight: bold; color: #2e5972; \x7d",
  "        .table-container \x7b margin-top: 10px; padding: 10px; border-radius: 5px; \x7d",
  "        .description \x7b color: #4a5568; \x7d",
  "        table \x7b width: 100%; color: #333; border-collapse: collapse; \x7d",
  "        th, td \x7b padding: 8px 12px; text-align: left; border: 1px solid #ccc; \x7d",
  "        th \x7b width: 160px; background-color: #2e5972; color: #fff; \x7d",
  "        .required \x7b color: #D53F8C; font-weight: bold; \x7d",
  "        .optional \x7b color: #718096; \x7d",
  "        .attribute \x7b color: #2B6CB0; font-weight: bold; \x7d",
  "        .relation \x7b color: #6B46C1; font-style: italic; \x7d",
  "        .model-link, .field-link \x7b color: #333; text-decoration: none; font-weight: bold; display: block; margin-bottom: 8px; \x7d",
  "        .model-fields \x7b border-left: 2px solid #ccc; padding-left: 10px; margin-bottom: 20px; \x7d",
  "        .field-link \x7b padding: 4px 0; color: #6c757d; \x7d",
  "        .field-link:hover, .model-link:hover \x7b color: #2e5972; \x7d",
  "        .model-spacing \x7b margin-bottom: 150px; \x7d",
  "        .export-button \x7b margin-bottom: 20px; padding: 6px 12px; border: 1px solid #2e5972; border-radius: 4px; background-color: #fff; color: #2e5972; cursor: pointer; \x7d",
  "    </style>",
  "</head>",
  "<body>",
  "<div class=\"sidebar\">",
  "    <h2>Schema Models</h2>",
  "    <button type=\"button\" class=\"export-button\" onclick=\"downloadMarkdown()\">Export Markdown</button>"]

/-- The export script after the embedded record, up to the offered file name. -/
def exportScript : Text := Text.ofLines [
  "",
  "    function markdownCell(text) \x7b",
  "        return String(text).split(\"|\").join(\"\\\\|\");",
  "    \x7d",
  "",
  "    function renderMarkdown(doc) \x7b",
  "        const blocks = [\"# \" + doc.title];",
  "        doc.models.forEach(function (model) \x7b",
  "            blocks.push(\"## \" + model.name);",
  "            model.fields.forEach(function (field) \x7b",
  "                const attributes = field.attributes.map(function (attribute) \x7b",
  "                    return attribute.text;",
  "                \x7d).join(\", \") || \"-\";",
  "                blocks.push(\"### \" + field.name);",
  "                blocks.push(\"**Description**: \" + field.description);",
  "                blocks.push([",
  "                    \"| Property | Value |\",",
  "                    \"|----------|-------|\",",
  "                    \"| **Type**| \" + markdownCell(field.type) + \" |\",",
  "                    \"| **Required**| \" + (field.isRequired ? \"Yes\" : \"No\") + \" |\",",
  "                    \"| **Attributes**| \" + markdownCell(attributes) + \" |\"",
  "                ].join(\"\\n\"));",
  "            \x7d);",
  "        \x7d);",
  "        return blocks.join(\"\\n\\n\") + \"\\n\";",
  "    \x7d",
  "",
  "    function downloadMarkdown() \x7b",
  "        const blob = new Blob([renderMarkdown(schemaDocument)], \x7b type: \"text/markdown\" \x7d);",
  "        const link = document.createElement(\"a\");",
  "        link.href = URL.createObjectURL(blob);"]

/-- The page from the offered file name on. -/
def pageEnd : Text := Text.ofLines [
  "        document.body.appendChild(link);",
  "        link.click();",
  "        document.body.removeChild(link);",
  "        URL.revokeObjectURL(link.href);",
  "    \x7d",
  "</script>",
  "</body>",
  "</html>"]

def fieldLink (s : FieldSection) : List Fragment :=
  [markup "        <a href=\"#", shown s.anchor, markup "\" class=\"field-link\">", shown s.field.name,
    markup "</a>\n"]

def modelLinks (s : ModelSection) : List Fragment :=
  [markup "    <a href=\"#", shown s.anchor, markup "\" class=\"model-link\">", shown s.model.name,
    markup "</a>\n    <div class=\"model-fields\">\n"] ++
  s.fields.flatMap fieldLink ++
  [markup "    </div>\n"]

/-- An attribute; one with a target is a link. -/
def attributeItem (a : Attribute) : List Fragment :=
  match a.target with
  | some target =>
    [markup "<a class=\"relation\" href=\"#", shown target, markup "\">", shown a.text, markup "</a>"]
  | none => [markup "<span class=\"attribute\">", shown a.text, markup "</span>"]

def attributeItems : List Attribute → List Fragment
  | [] => []
  | [a] => attributeItem a
  | a :: b :: rest => attributeItem a ++ [markup ", "] ++ attributeItems (b :: rest)

/-- What stands in the attribute cell: a dash if there are no attributes. -/
def attributeCell (as : List Attribute) : List Fragment :=
  if as.isEmpty then [markup "-"] else attributeItems as

def fieldSection (s : FieldSection) : List Fragment :=
  [markup "        <div class=\"table-container\" id=\"", shown s.anchor,
    markup "\">\n            <h2>", shown s.field.name,
    markup "</h2>\n            <p class=\"description\">", shown s.description,
    markup "</p>\n            <table>\n                <tr><th>Type</th><td>", shown s.field.type,
    markup "</td></tr>\n                <tr><th>Required</th><td class=\"",
    markup (if s.field.isRequired then "required" else "optional"), markup "\">",
    markup s.requiredText, markup "</td></tr>\n                <tr><th>Attributes</th><td>"] ++
  attributeCell s.attributes ++
  [markup "</td></tr>\n            </table>\n        </div>\n"]

def modelSection (s : ModelSection) : List Fragment :=
  [markup "    <div class=\"model model-spacing\" id=\"", shown s.anchor,
    markup "\">\n        <div class=\"model-name\">", shown s.model.name, markup "</div>\n"] ++
  s.fields.flatMap fieldSection ++
  [markup "    </div>\n"]

def page (title : Text) (sections : List ModelSection) (record : Json) : List Fragment :=
  [markup headStart, markup "    <title>", shown title, markup "</title>\n", markup headEnd] ++
  sections.flatMap modelLinks ++
  [markup "</div>\n<div class=\"content\">\n    <h1>", shown title, markup "</h1>\n"] ++
  sections.flatMap modelSection ++
  [markup "</div>\n<script>\n    const schemaDocument = ", script record, markup ";\n",
    markup exportScript, markup "        link.download = ", script (.string exportFileName),
    markup ";\n", markup pageEnd]

def document (title : Text) (sections : List ModelSection) : Except Unwritable Text := do
  let record ← exportRecord title sections
  let data ← record.toJson?
  return pageText (page title sections data)

def render (title : Text) (models : List Model) : Except RenderFault Text := do
  let sections ← ModelSection.listOfModels models
  match document title sections with
  | .ok page => return page
  | .error cause => throw (.unwritable cause)

end SchemaDocs.Html
