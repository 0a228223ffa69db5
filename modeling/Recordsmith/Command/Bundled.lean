import Recordsmith.Json.Writer

/-!
# The bundled template

The template that is used if there is none at the path of the command line.
-/

namespace Recordsmith

/-- A string of a template. -/
def leafText (s : String) : Json := .str s.toList

/-- An object of a template. -/
def templateObject (members : List (String × Json)) : Json :=
  .obj (members.map fun (key, v) => (key.toList, v))

/-- An order with its customer. -/
def bundledTemplate : Json :=
  templateObject
    [("id", leafText "seq()"),
     ("eventId", leafText "uuid"),
     ("createdAt", leafText "datetime"),
     ("updatedAt",
      leafText "datetime_seq(now-1, now, yyyy-MM-dd'T'HH:mm:ss.SSSZ, UTC, minute)"),
     ("customer", templateObject
       [("firstName", leafText "alpha(8)"),
        ("lastName", leafText "upper(alpha(10))"),
        ("displayName", leafText "cat(alpha(5), SPACE, alpha(7))"),
        ("accountCode", leafText "alphanumeric(12)"),
        ("birthDate", leafText "date(1950-01-01, 2004-12-31)"),
        ("segment", leafText "random('retail', 'business', 'premium')"),
        ("active", leafText "bool")]),
     ("order", templateObject
       [("quantity", leafText "int(1, 20)"),
        ("unitPrice", leafText "double(0.5, 250.0)"),
        ("reference", leafText "long(100000000000, 999999999999)"),
        ("channel", leafText "lower(random('WEB', 'STORE', 'PHONE'))"),
        ("note", leafText "qs(alpha(6))")]),
     ("tags", .arr [leafText "random('new', 'returning', 'vip')"]),
     ("source", leafText "DTM_RUNTIME"),
     ("version", .int 1),
     ("archived", .bool false),
     ("comment", .null)]

end Recordsmith
