/-
# Manifests

A manifest is the list of the resources that an app lets others overlay. Its
document holds a licence header with a year, a notice that it is generated, and
one item for each resource, in ascending order, in a single policy.
-/

import OverlayManifest.Resource
import OverlayManifest.Xml.Escape

namespace OverlayManifest

/-- What a manifest says. -/
structure Manifest where
  overlayable : String
  policy : String
  year : Int
  resources : ResourceSet

namespace Manifest

/-- An attribute as it is written in a tag, with the blank before it. -/
def writtenAttribute (key value : String) : String :=
  " " ++ key ++ "=\"" ++ String.ofList (Xml.escape value.toList) ++ "\""

/-- The text of the licence comment. -/
def licence (year : Int) : String :=
  "\n  Copyright (C) " ++ toString year ++ " The Android Open Source Project\n" ++
  "\n" ++
  "  Licensed under the Apache License, Version 2.0 (the \"License\");\n" ++
  "  you may not use this file except in compliance with the License.\n" ++
  "  You may obtain a copy of the License at\n" ++
  "\n" ++
  "       http://www.apache.org/licenses/LICENSE-2.0\n" ++
  "\n" ++
  "  Unless required by applicable law or agreed to in writing, software\n" ++
  "  distributed under the License is distributed on an \"AS IS\" BASIS,\n" ++
  "  WITHOUT WARRANTIES OR CONDITIONS OF ANY KIND, either express or implied.\n" ++
  "  See the License for the specific language governing permissions and\n" ++
  "  limitations under the License.\n" ++
  "  "

/-- The text of the comment above the root. -/
def notice : String := "THIS FILE IS AUTO GENERATED, DO NOT EDIT MANUALLY."

/-- The line that lists a resource. -/
def itemLine (resource : Resource) : String :=
  "      <item" ++ writtenAttribute "type" resource.type ++
    writtenAttribute "name" resource.name ++ "/>\n"

/-- The lines of the policy; without resources it is a single tag. -/
def policyLines (policy : String) : List Resource → List String
  | [] => ["    <policy" ++ writtenAttribute "type" policy ++ "/>\n"]
  | resources =>
      ["    <policy" ++ writtenAttribute "type" policy ++ ">\n"] ++
        resources.map itemLine ++ ["    </policy>\n"]

/-- The lines of the document; the comments have line breaks of their own. -/
def lines (manifest : Manifest) : List String :=
  ["<?xml version='1.0' encoding='utf-8'?>\n",
    "<!--" ++ licence manifest.year ++ "-->\n",
    "<!--" ++ notice ++ "-->\n",
    "<resources>\n",
    "  <overlayable" ++ writtenAttribute "name" manifest.overlayable ++ ">\n"] ++
  policyLines manifest.policy manifest.resources.toList ++
  ["  </overlayable>\n", "</resources>\n"]

/-- The document. -/
def render (manifest : Manifest) : String := String.join manifest.lines

end Manifest

end OverlayManifest
