import RouteBook.OpenApi.Shape

/-! The shape of an OpenAPI 3.1 document, part by part, with the fields in the order in which they are
written. -/

namespace RouteBook.OpenApi.Grammar

open Shape

abbrev FieldShape := String × Presence × Shape

def need (key : String) (shape : Shape) : FieldShape := (key, .required, shape)

def may (key : String) (shape : Shape) : FieldShape := (key, .optional, shape)

def orEmpty (key : String) (shape : Shape) : FieldShape := (key, .orEmpty, shape)

def object (fields : List FieldShape) : Shape := .object fields []

/-- A reference in place of something else; its texts are written only when they are not empty. -/
def reference : Shape :=
  object [need "$ref" .text, orEmpty "description" .text, orEmpty "summary" .text]

def orReference (shape : Shape) : Shape := .either [reference, shape]

def externalDocs : Shape := object [need "url" .text, ("description", .orNull, .text)]

def typeName : Shape :=
  .keyword ["object", "string", "integer", "number", "boolean", "array", "null"]

def schemaType : Shape := .either [typeName, .list typeName]

def xml : Shape :=
  object [may "name" .text, may "namespace" .text, may "prefix" .text, may "attribute" .flag, may "wrapped" .flag]

def discriminator : Shape :=
  object [need "propertyName" .text, orEmpty "mapping" (.sorted .text)]

def arraySchema : Shape :=
  object [
    ("type", .dropNull, schemaType), may "title" .text, need "items" (.either [.schema, .refusal]),
    orEmpty "prefixItems" (.list .schema), may "description" .text, may "deprecated" .flag, may "example" .any,
    orEmpty "examples" (.list .any), may "default" .any, may "maxItems" .count, may "minItems" .count,
    orEmpty "uniqueItems" .flag, may "xml" xml, orEmpty "contentEncoding" .text, orEmpty "contentMediaType" .text]

def objectSchema : Shape :=
  .object [
    ("type", .dropNull, schemaType), may "title" .text, may "format" .text, may "description" .text,
    may "default" .any, may "enum" (.list .any), orEmpty "required" (.list .text),
    orEmpty "properties" (.ordered .schema), may "additionalProperties" (.either [.schema, .flag]),
    may "propertyNames" .schema, may "deprecated" .flag, may "example" .any, orEmpty "examples" (.list .any),
    may "writeOnly" .flag, may "readOnly" .flag, may "xml" xml, may "multipleOf" .limit, may "maximum" .limit,
    may "minimum" .limit, may "exclusiveMaximum" .limit, may "exclusiveMinimum" .limit, may "maxLength" .count,
    may "minLength" .count, may "pattern" .text, may "maxProperties" .count, may "minProperties" .count]
    [orEmpty "contentEncoding" .text, orEmpty "contentMediaType" .text]

/-- A schema made of others, under the given key. -/
def composed (key : String) (titled : Bool) : Shape :=
  object ([need key (.list .schema), may "type" schemaType] ++ (if titled then [may "title" .text] else []) ++
    [may "description" .text, may "default" .any, may "example" .any, orEmpty "examples" (.list .any),
      may "discriminator" discriminator])

def schema : Shape :=
  orReference (.either [arraySchema, objectSchema, composed "oneOf" true, composed "allOf" true,
    composed "anyOf" false])

def header : Shape := object [need "schema" .schema, may "description" .text]

def encoding : Shape :=
  object [may "contentType" .text, orEmpty "headers" (.sorted header), may "style" .text, may "explode" .flag,
    may "allowReserved" .flag]

def sample : Shape :=
  object [orEmpty "summary" .text, orEmpty "description" .text, may "value" .any, orEmpty "externalValue" .text]

def content : Shape :=
  object [may "schema" .schema, may "example" .any, orEmpty "examples" (.sorted (orReference sample)),
    orEmpty "encoding" (.sorted encoding)]

def serverVariable : Shape :=
  object [need "default" .text, may "description" .text, may "enum" (.list .text)]

def server : Shape :=
  object [need "url" .text, may "description" .text, may "variables" (.sorted serverVariable)]

def link : Shape :=
  object [need "operationRef" .text, need "operationId" .text, orEmpty "parameters" (.sorted .any),
    may "requestBody" .any, need "description" .text, may "server" server]

def response : Shape :=
  object [need "description" .text, orEmpty "headers" (.sorted header), orEmpty "content" (.ordered content),
    orEmpty "links" (.sorted (orReference link))]

def style : Shape :=
  .keyword ["matrix", "label", "form", "simple", "spaceDelimited", "pipeDelimited", "deepObject"]

def parameter : Shape :=
  object [need "name" .text, need "in" (.keyword ["query", "path", "header", "cookie"]), may "description" .text,
    need "required" .flag, may "deprecated" .flag, may "schema" .schema, may "style" style, may "explode" .flag,
    may "allowReserved" .flag, may "example" .any]

def requestBody : Shape :=
  object [may "description" .text, need "content" (.sorted content), may "required" .flag]

def security : Shape := .list (.whole (.sorted (.list .text)))

def operation : Shape :=
  object [may "tags" (.list .text), may "summary" .text, may "description" .text, may "operationId" .text,
    may "externalDocs" externalDocs, may "parameters" (.list parameter), may "requestBody" requestBody,
    need "responses" (.entries (orReference response)), may "callbacks" .text, may "deprecated" .flag,
    may "security" security, may "servers" (.list server)]

def pathItem : Shape :=
  object [may "summary" .text, may "description" .text, may "servers" (.list server),
    may "parameters" (.list parameter), may "get" operation, may "put" operation, may "post" operation,
    may "delete" operation, may "options" operation, may "head" operation, may "patch" operation,
    may "trace" operation]

def contact : Shape := object [may "name" .text, may "url" .text, may "email" .text]

def license : Shape := object [need "name" .text, may "url" .text, may "identifier" .text]

def info : Shape :=
  object [need "title" .text, may "description" .text, may "termsOfService" .text, may "contact" contact,
    may "license" license, need "version" .text]

def tag : Shape := object [need "name" .text, may "description" .text, may "externalDocs" externalDocs]

def flow : Shape :=
  .either [
    object [need "authorizationUrl" .text, may "refreshUrl" .text, need "scopes" (.sorted .text)],
    object [need "tokenUrl" .text, may "refreshUrl" .text, need "scopes" (.sorted .text)]]

def apiKey : Shape := object [need "name" .text, may "description" .text]

def httpScheme : Shape :=
  .keyword ["basic", "bearer", "digest", "hoba", "mutual", "negotiate", "oauth", "scram-sha-1", "scram-sha-256",
    "vapid"]

def securityScheme : Shape :=
  .tagged "type" [
    ("oauth2", object [need "flows" (.sorted flow), may "description" .text]),
    ("apiKey", .tagged "in" [("header", apiKey), ("query", apiKey), ("cookie", apiKey)]),
    ("http", object [need "scheme" httpScheme, may "bearerFormat" .text, may "description" .text]),
    ("openIdConnect", object [need "openIdConnectUrl" .text, may "description" .text]),
    ("mutualTLS", object [may "description" .text])]

def components : Shape :=
  object [orEmpty "schemas" (.sorted .schema), orEmpty "responses" (.sorted (orReference response)),
    orEmpty "securitySchemes" (.sorted securityScheme)]

def document : Shape :=
  object [need "openapi" .version, need "info" info, may "servers" (.list server),
    need "paths" (.entries pathItem), may "components" components, may "security" security, may "tags" (.list tag),
    may "externalDocs" externalDocs, orEmpty "$schema" .text]

end RouteBook.OpenApi.Grammar
