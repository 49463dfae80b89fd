/-! The database routines that the selects of shapes call.
They look up the row that a discriminant and an item name, with or without a map of selects. -/
namespace DocumentViews.Sql

/-- Looks a row up through a map of selects. -/
def resolveRowWithNested : String := "\n".intercalate
  ["CREATE OR REPLACE FUNCTION " ++
     "resolve_row_with_nested(_collection text, _item_id text, _subqueries json)",
   "RETURNS SETOF json",
   "LANGUAGE plpgsql STABLE",
   "AS $$",
   "DECLARE",
   "    _subquery text := _subqueries ->> _collection;",
   "BEGIN",
   "    IF _subquery IS NULL THEN",
   "        RETURN NEXT '\x7b\x7d'::json;",
   "        RETURN;",
   "    END IF;",
   "    RETURN QUERY EXECUTE " ++
     "format('SELECT row_to_json(t) FROM (%s WHERE %I.id::text = %L) t', " ++
     "_subquery, _collection, _item_id);",
   "END",
   "$$;"]

/-- Looks a flat row up. -/
def resolveRow : String := "\n".intercalate
  ["CREATE OR REPLACE FUNCTION resolve_row(_collection text, _item_id text)",
   "RETURNS SETOF json",
   "LANGUAGE plpgsql STABLE",
   "AS $$",
   "BEGIN",
   "    RETURN QUERY EXECUTE " ++
     "format('SELECT row_to_json(t) FROM %I t WHERE t.id::text = %L', _collection, _item_id);",
   "END",
   "$$;"]

end DocumentViews.Sql
