/-! # About the program

The name and the version that the program goes by.
-/
namespace SchemaScribe.About

def packageName : String := "graphql-introspector"

def version : String := "0.2.0"

end SchemaScribe.About
